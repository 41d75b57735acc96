/-!
# Text as bytes

The bytes of a text, and the two ways of reading bytes as text: strictly, where a malformed
sequence refuses the whole, and with replacement, where every malformed sequence becomes one
replacement character.
-/

namespace LanguageClient.Utf8

/-- The bytes of a list of characters, in order. -/
def encodeChars (chars : List Char) : List UInt8 :=
  chars.flatMap String.utf8EncodeChar

/-- The bytes of a text. -/
def encode (text : String) : List UInt8 :=
  encodeChars text.toList

/-- The text that the bytes encode, if they are well formed from end to end. -/
def decode? (bytes : List UInt8) : Option String :=
  String.fromUTF8? ⟨bytes.toArray⟩

/-- The character that stands for a malformed sequence. -/
def replacement : Char := '\uFFFD'

/-- A continuation byte has the bits `10` on top. -/
def isContinuation (byte : UInt8) : Bool :=
  0x80 ≤ byte && byte ≤ 0xBF

/-- Two bytes that begin an encoding of three or four bytes. The second byte is narrowed where the
first one alone would allow an overlong form, a surrogate or a code point out of range. -/
def opensLongSequence (lead second : UInt8) : Bool :=
  if lead == 0xE0 then 0xA0 ≤ second && second ≤ 0xBF
  else if lead == 0xED then 0x80 ≤ second && second ≤ 0x9F
  else if lead == 0xF0 then 0x90 ≤ second && second ≤ 0xBF
  else if lead == 0xF4 then 0x80 ≤ second && second ≤ 0x8F
  else 0xE1 ≤ lead && lead ≤ 0xF3 && isContinuation second

/-- How many bytes at the front belong to one malformed sequence: the longest part that still
begins some encoding, and one byte if there is none. -/
def malformedLength : List UInt8 → Nat
  | lead :: second :: rest =>
    if opensLongSequence lead second then
      match rest with
      | third :: _ => if 0xF0 ≤ lead && isContinuation third then 3 else 2
      | [] => 2
    else 1
  | _ => 1

/-- The character whose encoding stands at the front. -/
def headChar? (bytes : List UInt8) : Option Char :=
  ByteArray.utf8DecodeChar? ⟨(bytes.take 4).toArray⟩ 0

/-- The characters that the bytes encode, with one replacement for each malformed sequence. -/
def decodeLossyChars : List UInt8 → List Char
  | [] => []
  | byte :: rest =>
    match headChar? (byte :: rest) with
    | some c => c :: decodeLossyChars (rest.drop (c.utf8Size - 1))
    | none => replacement :: decodeLossyChars (rest.drop (malformedLength (byte :: rest) - 1))
termination_by bytes => bytes.length
decreasing_by all_goals simp only [List.length_drop, List.length_cons]; omega

/-- The text that the bytes encode, with one replacement for each malformed sequence. -/
def decodeLossy (bytes : List UInt8) : String :=
  String.ofList (decodeLossyChars bytes)

end LanguageClient.Utf8
