/-!
# Paths of files

Paths are texts whose parts are separated by slashes. Empty parts and single dots do not count as
components, save a dot at the front of a relative path.
-/

namespace LanguageClient.Path

/-- Splits at every slash; the parts may be empty. -/
def splitSlash : List Char → List (List Char)
  | [] => [[]]
  | c :: rest =>
    if c == '/' then [] :: splitSlash rest
    else
      match splitSlash rest with
      | [] => [[c]]
      | part :: parts => (c :: part) :: parts

/-- The parts between slashes. -/
def segments (path : String) : List String :=
  (splitSlash path.toList).map String.ofList

/-- Whether a path starts at the root. -/
def isAbsolute (path : String) : Bool :=
  path.toList.head? == some '/'

/-- Whether a part between slashes names nothing. -/
def isIdle (segment : String) : Bool :=
  segment == "" || segment == "."

/-- What a path stands on: the root, or the dot that opens a relative path. -/
def anchor (path : String) : List String :=
  if isAbsolute path then ["/"]
  else if (segments path).head? == some "." then ["."]
  else []

/-- The components of a path, the root being one of them. -/
def components (path : String) : List String :=
  anchor path ++ (segments path).filter fun segment => !isIdle segment

/-- The name of the file or folder at the end of a path, unless the path ends in the root, in a
dot or in a step upwards. -/
def fileName? (path : String) : Option String :=
  match (components path).getLast? with
  | some name => if name == "/" || name == "." || name == ".." then none else some name
  | none => none

/-- A path read from a folder; an absolute path replaces the folder. -/
def join (folder path : String) : String :=
  if isAbsolute path || folder == "" then path
  else if folder.toList.getLast? == some '/' then folder ++ path
  else folder ++ "/" ++ path

/-- Drops the first `count` components from the parts of a path, and the idle parts before the next
one. -/
def dropComponents : (count : Nat) → List String → List String
  | 0, parts => parts.dropWhile isIdle
  | count + 1, parts =>
    match parts.dropWhile isIdle with
    | [] => []
    | _ :: rest => dropComponents count rest

/-- The parts without the idle ones at the end. -/
def dropIdleEnd (parts : List String) : List String :=
  (parts.reverse.dropWhile isIdle).reverse

/-- The path below a folder, if the components of the folder begin those of the path. -/
def below? (folder path : String) : Option String :=
  let base := components folder
  if base.isPrefixOf (components path) then
    let start := anchor path
    let body := if start.isEmpty then segments path else (segments path).drop 1
    if base.isEmpty then
      let rest := "/".intercalate (dropIdleEnd body)
      if isAbsolute path then some ("/" ++ rest)
      else if start.isEmpty || rest == "" then some ("/".intercalate start ++ rest)
      else some ("./" ++ rest)
    else
      some ("/".intercalate (dropIdleEnd (dropComponents (base.length - start.length) body)))
  else none

/-- The path as seen from a folder: the part below it, or the whole path if it lies elsewhere. -/
def relativeTo (folder path : String) : String :=
  (below? folder path).getD path

end LanguageClient.Path
