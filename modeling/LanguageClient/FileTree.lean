import LanguageClient.Path
import LanguageClient.Text.Utf8

/-!
# Files and folders

A tree of files and folders as a list of entries, each under the names that lead to it from the
root, together with the folder against which relative paths are read. Every step of a path but the
last has to lead to a folder. A link stands for a folder at another place, so that a path through
it goes on there.
-/

namespace LanguageClient

/-- What stands at a place of the tree. -/
inductive FileEntry
  | file (bytes : List UInt8)
  | folder

/-- Why a file cannot be read, written or run. -/
inductive FileError
  /-- Nothing stands at the path. -/
  | notFound
  /-- A step of the path leads to a file. -/
  | notFolder
  /-- A folder stands where a file is expected. -/
  | isFolder
  /-- A file stands where a folder is to be made. -/
  | occupied
  /-- The content of the file is not text. -/
  | notText
  /-- The path holds a character that no name can have. -/
  | badName
  /-- A name, or the path as a whole, is longer than the system allows. -/
  | nameTooLong
  /-- What stands at the path may not be run. -/
  | forbidden
  /-- A word of a command holds a character that no word can have. -/
  | badWord
  deriving DecidableEq

namespace FileError

/-- The wording of the system. -/
def systemMessage : FileError → String
  | .notFound => "No such file or directory (os error 2)"
  | .notFolder => "Not a directory (os error 20)"
  | .isFolder => "Is a directory (os error 21)"
  | .occupied => "File exists (os error 17)"
  | .notText => "stream did not contain valid UTF-8"
  | .badName => "file name contained an unexpected NUL byte"
  | .nameTooLong => "File name too long (os error 36)"
  | .forbidden => "Permission denied (os error 13)"
  | .badWord => "nul byte found in provided data"

end FileError

/-- A tree of files and folders. -/
structure FileTree where
  /-- The folder against which relative paths are read. -/
  home : List String
  /-- The links, each with the place it stands for. -/
  links : List (List String × List String)
  entries : List (List String × FileEntry)

namespace FileTree

/-- The places that lead from the root to a place, the place included. -/
def ancestors (place : List String) : List (List String) :=
  (List.range (place.length + 1)).map place.take

/-- The tree that holds nothing but the folders that lead to its home. -/
def bare (home : List String) : FileTree :=
  ⟨home, [], (ancestors home).map fun place => (place, .folder)⟩

/-- The tree that holds nothing but its home, which is a link to a folder. -/
def linked (home place : List String) : FileTree :=
  ⟨home, [(home, place)], (ancestors home.dropLast ++ ancestors place).eraseDups.map fun place =>
    (place, .folder)⟩

/-- The path of the home folder. -/
def homePath (tree : FileTree) : String :=
  "/" ++ "/".intercalate tree.home

/-- What stands at a place. -/
def entry? (tree : FileTree) (place : List String) : Option FileEntry :=
  tree.entries.lookup place

/-- The place at which a path goes on that has come to a place. -/
def arrive (tree : FileTree) (place : List String) : List String :=
  (tree.links.lookup place).getD place

/-- Where a path begins. -/
def origin (tree : FileTree) (path : String) : List String :=
  if Path.isAbsolute path then [] else tree.arrive tree.home

/-- How many bytes a name may have. -/
def maxName : Nat := 255

/-- How many bytes a path may have. -/
def maxPath : Nat := 4095

/-- Whether a text holds the character that ends texts for the system. -/
def holdsNul (text : String) : Bool :=
  text.toList.contains '\x00'

/-- Follows the steps of a path from a place. Steps upwards stop at the root; a step onwards needs a
folder to stand in. -/
def follow (tree : FileTree) (place : List String) : List String → Except FileError (List String)
  | [] => .ok place
  | step :: steps =>
    match tree.entry? place with
    | none => .error .notFound
    | some (.file _) => .error .notFolder
    | some .folder =>
      if Path.isIdle step then follow tree place steps
      else if step == ".." then follow tree place.dropLast steps
      else if maxName < step.utf8ByteSize then .error .nameTooLong
      else follow tree (tree.arrive (place ++ [step])) steps

/-- The place that a path names, whether or not something stands there. -/
def locate (tree : FileTree) (path : String) : Except FileError (List String) :=
  if path == "" then .error .notFound
  else if holdsNul path then .error .badName
  else if maxPath < path.utf8ByteSize then .error .nameTooLong
  else tree.follow (tree.origin path) (Path.segments path)

/-- Whether a folder stands at a path. -/
def isFolder (tree : FileTree) (path : String) : Bool :=
  match tree.locate path with
  | .ok place =>
    match tree.entry? place with
    | some .folder => true
    | _ => false
  | .error _ => false

/-- Whether anything stands at a path. -/
def isPresent (tree : FileTree) (path : String) : Bool :=
  match tree.locate path with
  | .ok place => (tree.entry? place).isSome
  | .error _ => false

/-- The bytes of the file at a path. -/
def read (tree : FileTree) (path : String) : Except FileError (List UInt8) := do
  match tree.entry? (← tree.locate path) with
  | some (.file bytes) => .ok bytes
  | some .folder => .error .isFolder
  | none => .error .notFound

/-- The text of the file at a path. -/
def readText (tree : FileTree) (path : String) : Except FileError String := do
  match Utf8.decode? (← tree.read path) with
  | some text => .ok text
  | none => .error .notText

/-- Puts an entry at a place, in place of what stood there. -/
def put (tree : FileTree) (place : List String) (entry : FileEntry) : FileTree :=
  { tree with entries := (place, entry) :: tree.entries.filter fun other => other.1 != place }

/-- Writes a file; the folder that holds it has to be there. -/
def write (tree : FileTree) (path : String) (bytes : List UInt8) : Except FileError FileTree := do
  let place ← tree.locate path
  match tree.entry? place with
  | some .folder => .error .isFolder
  | some (.file _) => .ok (tree.put place (.file bytes))
  | none =>
    if (Path.segments path).getLast? == some "" then .error .isFolder
    else .ok (tree.put place (.file bytes))

/-- Makes the folders along the steps of a path that are missing. A file in the way is reported
according to whether the path goes on behind it. -/
def makeAlong (tree : FileTree) (place : List String) :
    List String → Except FileError FileTree
  | [] => .ok tree
  | step :: steps =>
    if Path.isIdle step then makeAlong tree place steps
    else if step == ".." then makeAlong tree place.dropLast steps
    else if maxName < step.utf8ByteSize then .error .nameTooLong
    else
      let next := tree.arrive (place ++ [step])
      match tree.entry? next with
      | some .folder => makeAlong tree next steps
      | some (.file _) => .error (if steps.all Path.isIdle then .occupied else .notFolder)
      | none => makeAlong (tree.put next .folder) next steps

/-- Makes the folders along a path that are missing. -/
def makeFolders (tree : FileTree) (path : String) : Except FileError FileTree :=
  tree.makeAlong (tree.origin path) (Path.segments path)

/-- Writes a file and makes the folders that lead to it. -/
def writeAlong (tree : FileTree) (path : String) (bytes : List UInt8) :
    Except FileError FileTree := do
  let folder := "/".intercalate (Path.segments path).dropLast
  (← tree.makeFolders folder).write path bytes

/-- The path from the root to what stands at a path. -/
def canonical (tree : FileTree) (path : String) : Except FileError String := do
  let place ← tree.locate path
  match tree.entry? place with
  | some _ => .ok ("/" ++ "/".intercalate place)
  | none => .error .notFound

/-- Why what stands at a path cannot be run; no file of the tree may be. -/
def runFailure (tree : FileTree) (path : String) : FileError :=
  match tree.locate path with
  | .ok place => if (tree.entry? place).isSome then .forbidden else .notFound
  | .error error => error

/-- Why a command that is not installed cannot be started in a folder. Its name is a path from that
folder if it has a slash. Otherwise it is looked up in the folders with the installed commands, of
which each contains itself and the one above it. -/
def startFailure (tree : FileTree) (folder command : String) (args : List String) : FileError :=
  if (command :: args).any holdsNul then .badWord
  else if command.toList.contains '/' then tree.runFailure (Path.join folder command)
  else if command == "." || command == ".." then .forbidden
  else if maxName < command.utf8ByteSize then .nameTooLong
  else .notFound

/-- Removes a file, or a folder with everything below it. -/
def remove (tree : FileTree) (path : String) : FileTree × Bool :=
  match tree.locate path with
  | .error _ => (tree, false)
  | .ok place =>
    if (tree.entry? place).isSome then
      ({ tree with entries := tree.entries.filter fun other => !place.isPrefixOf other.1 }, true)
    else (tree, false)

end FileTree

end LanguageClient
