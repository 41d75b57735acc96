import LanguageClient.FileTree
import LanguageClient.Glob.Nesting
import LanguageClient.LanguageId
import LanguageClient.Protocol.Filter
import LanguageClient.Uri

/-!
# Which documents and files a filter covers

A filter covers a document if its scheme, its language and the path in its address satisfy every
condition that the filter states. The language of a document that does not tell it is guessed from
its path. A pattern that is nested too deeply cannot be matched, so a filter fails where its
other conditions hold and such a pattern remains.
-/

namespace LanguageClient

/-- What a filter looks at in a document. -/
structure DocumentInfo where
  uri : String
  language : Option String

namespace GlobPattern

/-- Drops the slashes at the front. -/
def dropSlashes (chars : List Char) : List Char :=
  chars.dropWhile (· == '/')

/-- Drops the slashes at the end. -/
def dropEndSlashes (chars : List Char) : List Char :=
  (dropSlashes chars.reverse).reverse

/-- The part of a path below a folder; the folder itself has the empty part. -/
def partBelow? (folder path : String) : Option (List Char) :=
  match Uri.dropLeading? (dropEndSlashes folder.toList) path.toList with
  | some [] => some []
  | some ('/' :: rest) => some (dropSlashes rest)
  | _ => none

/-- Whether the pattern matches a path. -/
def covers (path : String) : GlobPattern → Bool
  | .pattern text => Glob.isMatch text path false
  | .relative rel =>
    match partBelow? (Uri.split rel.base.address).2 path with
    | some part => Glob.isMatch rel.pattern (String.ofList part) false
    | none => false

/-- Whether a path would have to be matched although the pattern is nested too deeply. -/
def failsOn (path : String) : GlobPattern → Bool
  | .pattern text => Glob.isTooDeep text
  | .relative rel =>
    (partBelow? (Uri.split rel.base.address).2 path).isSome && Glob.isTooDeep rel.pattern

end GlobPattern

namespace TextDocumentFilter

/-- Whether the conditions on the scheme and the language hold for a document. -/
def concerns (filter : TextDocumentFilter) (document : DocumentInfo) : Bool :=
  let (scheme, path) := Uri.split document.uri
  let language := document.language <|> languageOfPath? path
  filter.scheme.all (· == scheme) && filter.language.all (language == some ·)

/-- Whether the filter covers a document. -/
def covers (filter : TextDocumentFilter) (document : DocumentInfo) : Bool :=
  filter.concerns document &&
    filter.pattern.all (GlobPattern.covers (Uri.split document.uri).2)

/-- Whether it cannot be told if the filter covers a document. -/
def failsOn (filter : TextDocumentFilter) (document : DocumentInfo) : Bool :=
  filter.concerns document &&
    filter.pattern.any (GlobPattern.failsOn (Uri.split document.uri).2)

/-- For each document, whether the filter covers it, if this can be told for all of them. -/
def coversAll? (filter : TextDocumentFilter) (documents : List DocumentInfo) :
    Option (List Bool) :=
  if documents.any filter.failsOn then none else some (documents.map filter.covers)

end TextDocumentFilter

namespace DocumentFilter

/-- Whether the filter covers a document; filters for notebook cells cover none. -/
def covers (document : DocumentInfo) : DocumentFilter → Bool
  | .textDocument filter => filter.covers document
  | .notebookCell _ => false

/-- Whether it cannot be told if the filter covers a document. -/
def failsOn (document : DocumentInfo) : DocumentFilter → Bool
  | .textDocument filter => filter.failsOn document
  | .notebookCell _ => false

end DocumentFilter

/-- Drops the slash in front of a drive letter with its colon. -/
def dropDriveSlash (path : String) : String :=
  match path.toList with
  | '/' :: drive :: ':' :: rest =>
    if drive.isAlpha then String.ofList (drive :: ':' :: rest) else path
  | _ => path

namespace FileKind

/-- Whether what stands at a path is of the kind; what is no folder counts as a file. -/
def holds (files : FileTree) (path : String) : FileKind → Bool
  | .file => !files.isFolder path
  | .folder => files.isFolder path

end FileKind

namespace FileOperationFilter

/-- Whether the filter covers the file at an address. -/
def covers (files : FileTree) (filter : FileOperationFilter) (uri : String) : Bool :=
  let (scheme, path) := Uri.split uri
  let pattern := filter.pattern
  let ignoreCase := (pattern.options.bind FilePatternOptions.ignoreCase).getD false
  filter.scheme.all (· == scheme) &&
    Glob.isMatch pattern.glob path ignoreCase &&
    pattern.kind.all (FileKind.holds files (dropDriveSlash path))

/-- Whether it cannot be told if the filter covers the file at an address. -/
def failsOn (filter : FileOperationFilter) (uri : String) : Bool :=
  filter.scheme.all (· == (Uri.split uri).1) && Glob.isTooDeep filter.pattern.glob

/-- For each address, whether the filter covers the file there, if this can be told for all of
them. -/
def coversAll? (files : FileTree) (filter : FileOperationFilter) (uris : List String) :
    Option (List Bool) :=
  if uris.any filter.failsOn then none else some (uris.map (filter.covers files))

end FileOperationFilter

end LanguageClient
