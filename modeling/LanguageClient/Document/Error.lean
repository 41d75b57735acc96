import LanguageClient.FileTree

/-!
# Failures of documents

Why a document cannot be opened, edited or saved.
-/

namespace LanguageClient

/-- A failure of a document. -/
inductive DocumentError
  /-- There is no file at the path. -/
  | notFound (path : String)
  /-- Nothing holds the document open. -/
  | closed (uri : String)
  /-- The offset lies outside the text or within a character. -/
  | invalidOffset (uri : String) (offset : Nat)
  /-- The edit touches what a queued edit replaces. -/
  | overlappingEdit (uri : String) (start stop : Nat)
  /-- The text has no such position. -/
  | invalidPosition (uri : String) (line character : UInt32)
  /-- The file cannot be read or written. -/
  | file (error : FileError)
  deriving DecidableEq

namespace DocumentError

/-- The wording of a failure, where it has one of its own. -/
def message? : DocumentError → Option String
  | .notFound path => some ("Document not found: " ++ path)
  | .closed uri => some ("Document is closed: " ++ uri)
  | .invalidOffset uri offset =>
    some ("Offset " ++ toString offset ++
      " is out of bounds or not a character boundary in " ++ uri)
  | .overlappingEdit uri start stop =>
    some ("Edit [" ++ toString start ++ ", " ++ toString stop ++
      ") overlaps a pending edit in " ++ uri)
  | .invalidPosition uri line character =>
    some ("Position " ++ toString line.toNat ++ ":" ++ toString character.toNat ++
      " is outside " ++ uri)
  | .file _ => none

/-- The wording of a failure, that of the system included. -/
def message : DocumentError → String
  | .file error => error.systemMessage
  | error => error.message?.getD ""

end DocumentError

/-- A failure of a list of locations. -/
inductive LocationError
  /-- The document has changed since the list was built. -/
  | staleEntry (uri : String)
  /-- The list has no entry for the document. -/
  | noEntry (key : String)
  /-- The list does not consist of exactly one range. -/
  | notSingle (documents ranges : Nat)
  /-- There are more documents than lists of ranges, or fewer. -/
  | lengthMismatch (documents ranges : Nat)
  /-- A document cannot be opened, or a range does not lie in it. -/
  | document (error : DocumentError)
  deriving DecidableEq

namespace LocationError

/-- The wording of a failure, where it has one of its own. -/
def message? : LocationError → Option String
  | .staleEntry uri =>
    some ("Entry for " ++ uri ++ " is stale: the document changed after the list was built")
  | .noEntry key => some ("No entry for " ++ key)
  | .notSingle documents ranges =>
    some ("LocationList has " ++ toString documents ++ " document(s) and " ++ toString ranges ++
      " range(s), expected exactly one entry")
  | .lengthMismatch documents ranges =>
    some ("Got " ++ toString documents ++ " document(s) but " ++ toString ranges ++
      " range list(s)")
  | .document error => error.message?

/-- Whether the failure means that there is nothing under a key; stale entries count as absent. -/
def isNotFound : LocationError → Bool
  | .staleEntry _ | .noEntry _ => true
  | _ => false

end LocationError

end LanguageClient
