import LanguageClient.Protocol.Position
import LanguageClient.Vocabulary.Kinds

/-!
# Lines, offsets and positions

An offset counts the bytes from the start of a text, a position names a line and counts characters
from its start in the unit of a position encoding. A line ends in a line feed, in a carriage return,
or in both together. The table of a text holds the offset at which each of its lines starts.
-/

namespace LanguageClient

namespace PositionEncoding

/-- How many units a character takes. Encodings that are not known count as UTF-16. -/
def units (c : Char) : PositionEncoding → Nat
  | .utf8 => c.utf8Size
  | .utf32 => 1
  | .utf16 | .custom _ => if c.toNat < 0x10000 then 1 else 2

end PositionEncoding

namespace Text

/-- How many bytes a text takes. -/
def byteSize (text : List Char) : Nat :=
  text.foldr (fun c size => c.utf8Size + size) 0

/-- Whether an offset lies within the text and between two characters. -/
def isBoundary : (offset : Nat) → List Char → Bool
  | 0, _ => true
  | _ + 1, [] => false
  | offset + 1, c :: rest => c.utf8Size ≤ offset + 1 && isBoundary (offset + 1 - c.utf8Size) rest

/-- The characters that begin before an offset. -/
def takeBytes : (offset : Nat) → List Char → List Char
  | 0, _ => []
  | _ + 1, [] => []
  | offset + 1, c :: rest => c :: takeBytes (offset + 1 - c.utf8Size) rest

/-- The characters from an offset on. -/
def dropBytes : (offset : Nat) → List Char → List Char
  | 0, text => text
  | _ + 1, [] => []
  | offset + 1, c :: rest => dropBytes (offset + 1 - c.utf8Size) rest

/-- The characters between two offsets. -/
def slice (start stop : Nat) (text : List Char) : List Char :=
  takeBytes (stop - start) (dropBytes start text)

/-- The offsets just after each line end, for a text that starts at an offset. -/
def lineStartsFrom (offset : Nat) : List Char → List Nat
  | [] => []
  | '\r' :: '\n' :: rest => (offset + 2) :: lineStartsFrom (offset + 2) rest
  | c :: rest =>
    let next := offset + c.utf8Size
    if c == '\r' || c == '\n' then next :: lineStartsFrom next rest else lineStartsFrom next rest

/-- The offset at which each line starts. -/
def lineStarts (text : List Char) : List Nat :=
  0 :: lineStartsFrom 0 text

/-- Whether a character belongs to a line end. -/
def isLineEnd (c : Char) : Bool :=
  c == '\r' || c == '\n'

/-- The text without the line ends behind it. -/
def dropLineEnds (text : List Char) : List Char :=
  (text.reverse.dropWhile isLineEnd).reverse

/-- The number of bytes that so many units of a line take, unless they end within a character or
beyond the line. -/
def bytesOfUnits? (encoding : PositionEncoding) : (units : Nat) → List Char → Option Nat
  | 0, _ => some 0
  | _ + 1, [] => none
  | units + 1, c :: rest =>
    if encoding.units c ≤ units + 1 then
      (bytesOfUnits? encoding (units + 1 - encoding.units c) rest).map (c.utf8Size + ·)
    else none

/-- The offset of a position; the line end does not count as part of its line. -/
def offsetAt? (text : List Char) (lines : List Nat) (position : Position)
    (encoding : PositionEncoding) : Option Nat := do
  let line := position.line.toNat
  let start ← lines[line]?
  let stop := lines[line + 1]?.getD (byteSize text)
  let content := dropLineEnds (slice start stop text)
  let bytes ← bytesOfUnits? encoding position.character.toNat content
  some (start + bytes)

/-- How many units a text takes. -/
def unitCount (encoding : PositionEncoding) (text : List Char) : Nat :=
  text.foldr (fun c count => encoding.units c + count) 0

/-- A number as a word of a position, if it fits. -/
def word? (n : Nat) : Option UInt32 :=
  if n < Nat.pow 2 32 then some (UInt32.ofNat n) else none

/-- The position of an offset. -/
def positionAt? (text : List Char) (lines : List Nat) (offset : Nat)
    (encoding : PositionEncoding) : Option Position := do
  if isBoundary offset text then
    let before := lines.takeWhile (· ≤ offset)
    let start ← before.getLast?
    let character := unitCount encoding (slice start offset text)
    return { line := ← word? (before.length - 1), character := ← word? character }
  else none

end Text

end LanguageClient
