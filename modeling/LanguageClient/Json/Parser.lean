import LanguageClient.Double
import LanguageClient.Json.Basic

/-!
# Reading JSON

Each reader takes characters from the front of a list and returns what it read together with the
characters that remain. Arrays and objects may only be nested up to a given depth; the reader of
values is defined by recursion on that depth, and the loops over items by recursion on the number
of characters left, which every item makes smaller.
-/

namespace LanguageClient.Json

/-- The blanks that may stand between tokens. -/
def isSpace (c : Char) : Bool :=
  c == ' ' || c == '\n' || c == '\t' || c == '\r'

/-- Drops the blanks in front of the next token. -/
def skipSpace (chars : List Char) : List Char :=
  chars.dropWhile isSpace

/-- The value of a hexadecimal digit. -/
def hexValue? (c : Char) : Option Nat :=
  if '0' ≤ c && c ≤ '9' then some (c.toNat - '0'.toNat)
  else if 'a' ≤ c && c ≤ 'f' then some (c.toNat - 'a'.toNat + 10)
  else if 'A' ≤ c && c ≤ 'F' then some (c.toNat - 'A'.toNat + 10)
  else none

/-- Four hexadecimal digits. -/
def readHex4 : List Char → Option (Nat × List Char)
  | a :: b :: c :: d :: rest => do
    let a ← hexValue? a
    let b ← hexValue? b
    let c ← hexValue? c
    let d ← hexValue? d
    some (((a * 16 + b) * 16 + c) * 16 + d, rest)
  | _ => none

/-- The character after `\u`: one unit of sixteen bits, or a high and a low surrogate, each with
its own escape. A surrogate without its partner is refused. -/
def readUnicode (chars : List Char) : Option (Char × List Char) := do
  let (high, rest) ← readHex4 chars
  if 0xD800 ≤ high && high < 0xDC00 then
    match rest with
    | '\\' :: 'u' :: rest =>
      let (low, rest) ← readHex4 rest
      if 0xDC00 ≤ low && low < 0xE000 then
        some (Char.ofNat (0x10000 + (high - 0xD800) * 0x400 + (low - 0xDC00)), rest)
      else none
    | _ => none
  else if 0xDC00 ≤ high && high < 0xE000 then none
  else some (Char.ofNat high, rest)

/-- The character that a simple escape stands for. -/
def escaped? (c : Char) : Option Char :=
  match c with
  | '"' => some '"'
  | '\\' => some '\\'
  | '/' => some '/'
  | 'b' => some '\x08'
  | 'f' => some '\x0c'
  | 'n' => some '\n'
  | 'r' => some '\r'
  | 't' => some '\t'
  | _ => none

/-- The rest of a text after its opening quote; control characters have to be escaped. -/
def readText : (fuel : Nat) → List Char → Option (List Char × List Char)
  | 0, _ => none
  | _ + 1, [] => none
  | _ + 1, '"' :: rest => some ([], rest)
  | fuel + 1, '\\' :: 'u' :: rest => do
    let (c, rest) ← readUnicode rest
    let (text, rest) ← readText fuel rest
    some (c :: text, rest)
  | fuel + 1, '\\' :: c :: rest => do
    let c ← escaped? c
    let (text, rest) ← readText fuel rest
    some (c :: text, rest)
  | fuel + 1, c :: rest =>
    if c.toNat < 0x20 || c == '\\' then none
    else do
      let (text, rest) ← readText fuel rest
      some (c :: text, rest)

/-- A text with its quotes. -/
def readString : List Char → Option (String × List Char)
  | '"' :: rest => do
    let (text, rest) ← readText (rest.length + 1) rest
    some (String.ofList text, rest)
  | _ => none

/-- The number that decimal digits write, continuing from `value`. -/
def digitsValue (value : Nat) (digits : List Char) : Nat :=
  digits.foldl (fun sum c => sum * 10 + (c.toNat - '0'.toNat)) value

/-- The digits at the front, and the rest. -/
def spanDigits (chars : List Char) : List Char × List Char :=
  (chars.takeWhile Char.isDigit, chars.dropWhile Char.isDigit)

/-- The digits before the point: a zero stands alone. -/
def readWhole : List Char → Option (List Char × List Char)
  | '0' :: rest =>
    match rest with
    | c :: _ => if c.isDigit then none else some (['0'], rest)
    | [] => some (['0'], rest)
  | chars =>
    match spanDigits chars with
    | ([], _) => none
    | found => some found

/-- The digits after the point, if there is a point. -/
def readFraction : List Char → Option (List Char × List Char)
  | '.' :: rest =>
    match spanDigits rest with
    | ([], _) => none
    | found => some found
  | chars => some ([], chars)

/-- The number after the sign of an exponent. -/
def readExponentDigits (sign : Int) (chars : List Char) : Option (Option Int × List Char) :=
  match spanDigits chars with
  | ([], _) => none
  | (digits, rest) => some (some (sign * digitsValue 0 digits), rest)

/-- The exponent, if there is one. -/
def readExponent : List Char → Option (Option Int × List Char)
  | c :: rest =>
    if c == 'e' || c == 'E' then
      match rest with
      | '-' :: rest => readExponentDigits (-1) rest
      | '+' :: rest => readExponentDigits 1 rest
      | rest => readExponentDigits 1 rest
    else some (none, c :: rest)
  | [] => some (none, [])

/-- Whether `significand * 10 ^ exponent` is small enough for a number. The significand and the
power are rounded to double precision before they are multiplied, so the largest numbers of double
precision itself may be refused. -/
def inRange (significand : Nat) (exponent : Int) : Bool :=
  significand == 0 || exponent < 0 ||
    (exponent ≤ 308 &&
      Double.round significand * Double.round (Nat.pow 10 exponent.toNat) < Double.bound)

/-- The number that digits write, continuing from `value`, as far as it fits into a word of 64 bits,
and how many digits are left from there on. -/
def leadingValue (value : Nat) : List Char → Nat × Nat
  | [] => (value, 0)
  | c :: rest =>
    let next := digitsValue value [c]
    if next < Nat.pow 2 64 then leadingValue next rest else (value, rest.length + 1)

/-- Whether a number is small enough. Digits that do not fit into a word count only by their
place. -/
def isInRange (whole fraction : List Char) (exponent : Int) : Bool :=
  let (leading, dropped) := leadingValue 0 whole
  let (leading, left) := leadingValue leading fraction
  inRange leading (exponent + dropped - (fraction.length - left : Nat))

/-- The value of a number from its parts. Without a point and an exponent it is an integer if it
fits into a word; minus zero does not count as an integer. -/
def number? (negative : Bool) (whole fraction : List Char) (exponent : Option Int)
    (plain : Bool) : Option Json :=
  let significand := digitsValue (digitsValue 0 whole) fraction
  let signed : Int := if negative then -(significand : Int) else significand
  let fits :=
    if negative then 0 < significand && significand ≤ Nat.pow 2 63 else significand < Nat.pow 2 64
  if plain && fits then some (.int signed)
  else if !isInRange whole fraction (exponent.getD 0) then none
  else
    let power := exponent.getD 0 - fraction.length
    if significand == 0 || power < -100000 then some (.decimal 0 0)
    else some (.decimal signed power)

/-- A number. -/
def readNumber (chars : List Char) : Option (Json × List Char) := do
  let (negative, rest) := match chars with
    | '-' :: rest => (true, rest)
    | rest => (false, rest)
  let (whole, rest) ← readWhole rest
  let (fraction, rest) ← readFraction rest
  let (exponent, rest) ← readExponent rest
  let value ← number? negative whole fraction exponent (fraction.isEmpty && exponent.isNone)
  some (value, rest)

/-- Drops the rest of a word whose first letter chose it. -/
def readWord (word : List Char) (value : Json) (chars : List Char) : Option (Json × List Char) :=
  if word.isPrefixOf chars then some (value, chars.drop word.length) else none

/-- The items of an array after the first bracket or after a comma, up to the closing bracket. -/
def readItems (item : List Char → Option (Json × List Char)) :
    (fuel : Nat) → List Char → Option (List Json × List Char)
  | 0, _ => none
  | fuel + 1, chars => do
    let (value, rest) ← item (skipSpace chars)
    match skipSpace rest with
    | ',' :: rest =>
      let (values, rest) ← readItems item fuel rest
      some (value :: values, rest)
    | ']' :: rest => some ([value], rest)
    | _ => none

/-- One member of an object: a name, a colon and a value. -/
def readField (item : List Char → Option (Json × List Char)) (chars : List Char) :
    Option ((String × Json) × List Char) := do
  let (name, rest) ← readString (skipSpace chars)
  match skipSpace rest with
  | ':' :: rest =>
    let (value, rest) ← item (skipSpace rest)
    some ((name, value), rest)
  | _ => none

/-- The members of an object after the first brace or after a comma, up to the closing brace. -/
def readFields (item : List Char → Option (Json × List Char)) :
    (fuel : Nat) → List Char → Option (List (String × Json) × List Char)
  | 0, _ => none
  | fuel + 1, chars => do
    let (field, rest) ← readField item chars
    match skipSpace rest with
    | ',' :: rest =>
      let (fields, rest) ← readFields item fuel rest
      some (field :: fields, rest)
    | '}' :: rest => some ([field], rest)
    | _ => none

/-- A value that is neither an array nor an object. -/
def readScalar : List Char → Option (Json × List Char)
  | 'n' :: rest => readWord "ull".toList .null rest
  | 't' :: rest => readWord "rue".toList (.bool true) rest
  | 'f' :: rest => readWord "alse".toList (.bool false) rest
  | '"' :: rest => do
    let (text, rest) ← readString ('"' :: rest)
    some (.str text, rest)
  | chars => readNumber chars

/-- A value whose arrays and objects are nested at most `depth` deep. -/
def readValue : (depth : Nat) → List Char → Option (Json × List Char)
  | 0, chars =>
    match chars with
    | '[' :: _ => none
    | '{' :: _ => none
    | chars => readScalar chars
  | depth + 1, chars =>
    match chars with
    | '[' :: rest =>
      match skipSpace rest with
      | ']' :: rest => some (.arr [], rest)
      | rest => do
        let (items, rest) ← readItems (readValue depth) rest.length rest
        some (.arr items, rest)
    | '{' :: rest =>
      match skipSpace rest with
      | '}' :: rest => some (.obj [], rest)
      | rest => do
        let (fields, rest) ← readFields (readValue depth) rest.length rest
        some (.object fields, rest)
    | chars => readScalar chars

/-- Reads a text that holds one value, with blanks around it. -/
def parseWithin? (depth : Nat) (text : String) : Option Json := do
  let (value, rest) ← readValue depth (skipSpace text.toList)
  if (skipSpace rest).isEmpty then some value else none

/-- How deep the arrays and objects of a message may be nested. -/
def maxDepth : Nat := 127

/-- Reads a text that holds one value nested at most `maxDepth` deep. -/
def parse? (text : String) : Option Json :=
  parseWithin? maxDepth text

end LanguageClient.Json
