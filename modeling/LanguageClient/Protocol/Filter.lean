import LanguageClient.Vocabulary.Kinds

/-!
# Filters of documents and files

The conditions under which a registration applies: to documents by language, scheme and pattern,
and to file operations by scheme and pattern.
-/

namespace LanguageClient

open FieldReader

/-- The folder below which a relative pattern is read: an address, or a workspace folder. -/
inductive PatternBase
  | uri (uri : String)
  | folder (uri name : String)

namespace PatternBase

/-- The address of the folder. -/
def address : PatternBase → String
  | .uri text => text
  | .folder text _ => text

instance : Wire PatternBase where
  decode? value :=
    (decode? value).map .uri <|>
      value.readNamedRecord? do return .folder (← required "uri") (← required "name")
  encode
    | .uri text => encode text
    | .folder text name => .record [.field "uri" text, .field "name" name]

end PatternBase

/-- A pattern for the part of a path below a folder. -/
structure RelativePattern where
  base : PatternBase
  pattern : String

instance : Wire RelativePattern where
  decode? := Json.readRecord? do
    return { base := ← required "baseUri", pattern := ← required "pattern" }
  encode relative := .record [.field "baseUri" relative.base, .field "pattern" relative.pattern]

/-- A pattern for a whole path, or for the part below a folder. -/
inductive GlobPattern
  | pattern (glob : String)
  | relative (relative : RelativePattern)

instance : Wire GlobPattern where
  decode? value := (decode? value).map .pattern <|> (decode? value).map .relative
  encode
    | .pattern glob => encode glob
    | .relative relative => encode relative

/-- A condition on a text document; absent parts hold for every document. -/
structure TextDocumentFilter where
  language : Option String
  scheme : Option String
  pattern : Option GlobPattern

instance : Wire TextDocumentFilter where
  decode? := Json.readRecord? do
    return {
      language := ← nullable "language"
      scheme := ← nullable "scheme"
      pattern := ← nullable "pattern" }
  encode filter := .record [
    .optionalField "language" filter.language, .optionalField "scheme" filter.scheme,
    .optionalField "pattern" filter.pattern]

/-- A condition on the cells of a notebook. -/
structure NotebookCellFilter where
  notebook : Json
  language : Option String

instance : Wire NotebookCellFilter where
  decode? := Json.readRecord? do
    return { notebook := ← required "notebook", language := ← nullable "language" }
  encode filter :=
    .record [.field "notebook" filter.notebook, .optionalField "language" filter.language]

/-- A condition on a document. -/
inductive DocumentFilter
  | notebookCell (filter : NotebookCellFilter)
  | textDocument (filter : TextDocumentFilter)

instance : Wire DocumentFilter where
  decode? value := (decode? value).map .notebookCell <|> (decode? value).map .textDocument
  encode
    | .notebookCell filter => encode filter
    | .textDocument filter => encode filter

/-- The alternatives under which a registration applies to a document. -/
abbrev DocumentSelector := List DocumentFilter

/-- How the pattern of a file operation is matched. -/
structure FilePatternOptions where
  ignoreCase : Option Bool

instance : Wire FilePatternOptions where
  decode? := Json.readRecord? do return { ignoreCase := ← nullable "ignoreCase" }
  encode options := .record [.optionalField "ignoreCase" options.ignoreCase]

/-- A pattern for the paths of files or folders. -/
structure FilePattern where
  glob : String
  kind : Option FileKind
  options : Option FilePatternOptions

instance : Wire FilePattern where
  decode? := Json.readRecord? do
    return {
      glob := ← required "glob"
      kind := ← nullable "matches"
      options := ← nullable "options" }
  encode pattern := .record [
    .field "glob" pattern.glob, .optionalField "matches" pattern.kind,
    .optionalField "options" pattern.options]

/-- A condition on the file of a file operation. -/
structure FileOperationFilter where
  scheme : Option String
  pattern : FilePattern

instance : Wire FileOperationFilter where
  decode? := Json.readRecord? do
    return { scheme := ← nullable "scheme", pattern := ← required "pattern" }
  encode filter := .record [.optionalField "scheme" filter.scheme, .field "pattern" filter.pattern]

end LanguageClient
