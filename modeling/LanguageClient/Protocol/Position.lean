import LanguageClient.Json.Record

/-!
# Places in documents

Positions, ranges, edits and locations as servers send them. Lines and characters are counted from
zero; what a character is depends on the position encoding.
-/

namespace LanguageClient

open FieldReader

/-- A place between two characters of a document. -/
structure Position where
  line : UInt32
  character : UInt32
  deriving DecidableEq

instance : Wire Position where
  decode? := Json.readRecord? do
    return { line := ← required "line", character := ← required "character" }
  encode position :=
    .record [.field "line" position.line, .field "character" position.character]

/-- The places from a start up to an end. -/
structure Range where
  start : Position
  stop : Position
  deriving DecidableEq

instance : Wire Range where
  decode? := Json.readRecord? do
    return { start := ← required "start", stop := ← required "end" }
  encode range := .record [.field "start" range.start, .field "end" range.stop]

/-- A replacement of a range by a text. -/
structure TextEdit where
  range : Range
  newText : String

instance : Wire TextEdit where
  decode? := Json.readRecord? do
    return { range := ← required "range", newText := ← required "newText" }
  encode edit := .record [.field "range" edit.range, .field "newText" edit.newText]

/-- A range in the document at an address. -/
structure Location where
  uri : String
  range : Range

instance : Wire Location where
  decode? := Json.readRecord? do
    return { uri := ← required "uri", range := ← required "range" }
  encode location := .record [.field "uri" location.uri, .field "range" location.range]

/-- A location that also tells what it is reached from. -/
structure LocationLink where
  targetUri : String
  targetRange : Range
  /-- The span of the symbol at the target. -/
  targetSelectionRange : Range
  originSelectionRange : Option Range

instance : Wire LocationLink where
  decode? := Json.readRecord? do
    return {
      targetUri := ← required "targetUri"
      targetRange := ← required "targetRange"
      targetSelectionRange := ← required "targetSelectionRange"
      originSelectionRange := ← nullable "originSelectionRange" }
  encode link := .record [
    .field "targetUri" link.targetUri, .field "targetRange" link.targetRange,
    .field "targetSelectionRange" link.targetSelectionRange,
    .optionalField "originSelectionRange" link.originSelectionRange]

/-- The answer to a question for definitions or references. -/
inductive Locations
  | links (links : List LocationLink)
  | many (locations : List Location)
  | single (location : Location)

instance : Wire Locations where
  decode? value :=
    (decode? value).map .links <|> (decode? value).map .many <|> (decode? value).map .single
  encode
    | .links links => encode links
    | .many locations => encode locations
    | .single location => encode location

namespace Locations

/-- The address and the range of every target, in order; a link aims at the span of its symbol. -/
def targets : Locations → List (String × Range)
  | .links items => items.map fun link => (link.targetUri, link.targetSelectionRange)
  | .many items => items.map fun location => (location.uri, location.range)
  | .single location => [(location.uri, location.range)]

end Locations

end LanguageClient
