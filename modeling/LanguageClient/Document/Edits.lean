import LanguageClient.Document.Lines
import LanguageClient.Protocol.Notice

/-!
# Queued edits

Edits of a document are queued in ascending order until they are applied all at once. A new edit
is compared with its two neighbours in the queue only.
-/

namespace LanguageClient

/-- A replacement of the bytes from a start up to an end. -/
structure PendingEdit where
  start : Nat
  stop : Nat
  text : String
  deriving DecidableEq

namespace PendingEdit

/-- Whether a queued edit stands in the way of another one. Insertions at one offset do not. -/
def overlaps (queued edit : PendingEdit) : Bool :=
  let coversStart := queued.start ≤ edit.start && edit.start < queued.stop
  let coversStop := queued.start < edit.stop && edit.stop ≤ queued.stop
  let isCovered := edit.start ≤ queued.start && queued.stop < edit.stop
  coversStart || coversStop || isCovered

/-- Whether a queued edit stays in front of a new one: equal ranges keep their order. -/
def comesBefore (queued edit : PendingEdit) : Bool :=
  queued.start < edit.start || (queued.start == edit.start && queued.stop ≤ edit.stop)

end PendingEdit

/-- Edits in ascending order. -/
abbrev EditQueue := List PendingEdit

namespace EditQueue

/-- Puts an edit into its place, unless a neighbour stands in its way. -/
def insert? (queue : EditQueue) (edit : PendingEdit) : Option EditQueue :=
  let before := queue.takeWhile (·.comesBefore edit)
  let after := queue.dropWhile (·.comesBefore edit)
  if before.getLast?.any (·.overlaps edit) || after.head?.any (·.overlaps edit) then none
  else some (before ++ edit :: after)

/-- The text from an offset on with every range of the queue replaced. -/
def applyFrom (text : List Char) (offset : Nat) : EditQueue → List Char
  | [] => Text.dropBytes offset text
  | edit :: rest =>
    Text.slice offset edit.start text ++ edit.text.toList ++ applyFrom text edit.stop rest

/-- The text with every range of the queue replaced. -/
def apply (text : List Char) (queue : EditQueue) : List Char :=
  applyFrom text 0 queue

/-- The event that replaces the range of an edit, or the offset that has no position. -/
def event (text : List Char) (lines : List Nat) (encoding : PositionEncoding)
    (edit : PendingEdit) : Except Nat ChangeEvent :=
  match Text.positionAt? text lines edit.start encoding,
      Text.positionAt? text lines edit.stop encoding with
  | some start, some stop => .ok ⟨some ⟨start, stop⟩, edit.text⟩
  | _, _ => .error edit.start

/-- The events that replace every range, the last range first, so that each range is still valid in
the text that the events before it have left. -/
def events (text : List Char) (lines : List Nat) (encoding : PositionEncoding)
    (queue : EditQueue) : Except Nat (List ChangeEvent) :=
  queue.reverse.mapM (event text lines encoding)

end EditQueue

end LanguageClient
