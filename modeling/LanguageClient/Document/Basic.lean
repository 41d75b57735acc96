import LanguageClient.Document.Edits
import LanguageClient.Document.Error
import LanguageClient.Client.Documents

/-!
# Text documents

A document has a text, a version that grows with every commit, a queue of edits that are not
committed yet, and a number of holds. It is open as long as something holds it. Closing it for good
drops the edits that were not committed.
-/

namespace LanguageClient

/-- A text document. -/
structure TextDocument where
  /-- The number of the workspace that the document was opened through. -/
  workspace : Nat
  uri : String
  path : String
  language : String
  encoding : PositionEncoding
  text : String
  /-- How often edits were committed. Servers are told it as a word of 32 bits. -/
  version : Nat
  /-- How many holders keep the document open. -/
  holds : Nat
  /-- The offset at which each line starts. -/
  lines : List Nat
  edits : EditQueue
  /-- Whether the text is that of the file, as far as the document knows. -/
  isSaved : Bool

namespace TextDocument

/-- A document that was just read, with one hold. -/
def opened (workspace : Nat) (path uri language text : String) (encoding : PositionEncoding) :
    TextDocument where
  workspace := workspace
  uri := uri
  path := path
  language := language
  encoding := encoding
  text := text
  version := 0
  holds := 1
  lines := Text.lineStarts text.toList
  edits := []
  isSaved := true

/-- Whether nothing holds the document open. -/
def isClosed (document : TextDocument) : Bool := document.holds == 0

/-- Whether edits wait to be committed. -/
def hasPendingEdits (document : TextDocument) : Bool := !document.edits.isEmpty

/-- Refuses a document that is closed. -/
def ensureOpen (document : TextDocument) : Except DocumentError Unit :=
  if document.isClosed then .error (.closed document.uri) else .ok ()

/-- Takes one more hold on an open document. -/
def acquire (document : TextDocument) : Except DocumentError TextDocument := do
  document.ensureOpen
  return { document with holds := document.holds + 1 }

/-- Takes one more hold, also on a closed document, which is open again then; tells whether it had
been closed. -/
def reopen (document : TextDocument) : TextDocument × Bool :=
  ({ document with holds := document.holds + 1 }, document.isClosed)

/-- Gives one hold back; tells whether it was the last one. -/
def release (document : TextDocument) : Except DocumentError (TextDocument × Bool) := do
  document.ensureOpen
  let document := { document with holds := document.holds - 1 }
  return if document.isClosed then ({ document with edits := [] }, true) else (document, false)

/-- Gives all holds back; tells whether there was one. -/
def releaseAll (document : TextDocument) : TextDocument × Bool :=
  if document.isClosed then (document, false)
  else ({ document with holds := 0, edits := [] }, true)

/-- The offset of a position. -/
def offsetOf (document : TextDocument) (position : Position) : Except DocumentError Nat :=
  match Text.offsetAt? document.text.toList document.lines position document.encoding with
  | some offset => .ok offset
  | none => .error (.invalidPosition document.uri position.line position.character)

/-- The position of an offset. -/
def positionOf (document : TextDocument) (offset : Nat) : Except DocumentError Position :=
  match Text.positionAt? document.text.toList document.lines offset document.encoding with
  | some position => .ok position
  | none => .error (.invalidOffset document.uri offset)

/-- The offsets of the two ends of a range. -/
def offsetsOf (document : TextDocument) (range : Range) : Except DocumentError (Nat × Nat) := do
  return (← document.offsetOf range.start, ← document.offsetOf range.stop)

/-- Refuses an offset that lies outside the text or within a character. -/
def checkOffset (document : TextDocument) (offset : Nat) : Except DocumentError Unit :=
  if Text.isBoundary offset document.text.toList then .ok ()
  else .error (.invalidOffset document.uri offset)

/-- Queues a replacement of the bytes from a start up to an end. -/
def edit (document : TextDocument) (text : String) (start stop : Nat) :
    Except DocumentError TextDocument := do
  document.ensureOpen
  document.checkOffset start
  document.checkOffset stop
  if stop < start then throw (.invalidOffset document.uri start)
  match document.edits.insert? ⟨start, stop, text⟩ with
  | some edits => return { document with edits }
  | none => throw (.overlappingEdit document.uri start stop)

/-- Queues an insertion. -/
def insert (document : TextDocument) (text : String) (offset : Nat) :
    Except DocumentError TextDocument :=
  document.edit text offset offset

/-- Queues a deletion. -/
def delete (document : TextDocument) (start stop : Nat) : Except DocumentError TextDocument :=
  document.edit "" start stop

/-- Queues an edit that is given by positions. -/
def pushTextEdit (document : TextDocument) (edit : TextEdit) :
    Except DocumentError TextDocument := do
  let (start, stop) ← document.offsetsOf edit.range
  document.edit edit.newText start stop

/-- Drops the queued edits. -/
def discardEdits (document : TextDocument) : TextDocument :=
  { document with edits := [] }

/-- The document in one line, for diagnosis. -/
def describe (document : TextDocument) : String :=
  "TextDocument \x7b uri: " ++ Quoted.encode document.uri ++ ", language_id: " ++
    Quoted.encode document.language ++ ", version: " ++ toString document.version ++ ", holds: " ++
    toString document.holds ++ " \x7d"

/-- Applies the queued edits all at once. -/
def commit (document : TextDocument) : Except DocumentError (TextDocument × DocumentChange) := do
  document.ensureOpen
  let old := document.text.toList
  match document.edits.events old document.lines document.encoding with
  | .error offset => throw (.invalidOffset document.uri offset)
  | .ok events =>
    let new := document.edits.apply old
    let text := String.ofList new
    let version := document.version + 1
    return (
      { document with
        text, version, lines := Text.lineStarts new, edits := [], isSaved := false },
      ⟨document.uri, document.language, Int32.ofNat version, text, events⟩)

/-- What a server is told when the document is opened for it. -/
def toItem (document : TextDocument) : DocumentItem :=
  ⟨document.uri, document.language, Int32.ofNat document.version, document.text⟩

end TextDocument

end LanguageClient
