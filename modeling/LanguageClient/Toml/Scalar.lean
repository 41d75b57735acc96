import LanguageClient.Json.Parser
import LanguageClient.Toml.Moment

/-!
# Numbers, truth values and moments

These values are written as one word of letters, digits and the signs `+ - . : _`. A word is read
as a whole: each form either matches all of it or none.
-/

namespace LanguageClient.Toml

/-- The digits of a group, without the underscores that may stand between two of them. -/
def ungroup? (isDigit : Char → Bool) : List Char → Option (List Char)
  | [] => none
  | [c] => if isDigit c then some [c] else none
  | c :: '_' :: rest => if isDigit c then (ungroup? isDigit rest).map (c :: ·) else none
  | c :: rest => if isDigit c then (ungroup? isDigit rest).map (c :: ·) else none

/-- The number that digits of a base write. -/
def numberOfDigits (base : Nat) (digits : List Char) : Nat :=
  digits.foldl (fun sum c => sum * base + (Json.hexValue? c).getD 0) 0

/-- Takes the sign off the front; the flag tells whether it is a minus. -/
def splitSign : List Char → Bool × List Char
  | '-' :: rest => (true, rest)
  | '+' :: rest => (false, rest)
  | chars => (false, chars)

/-- The digits of a whole number in base ten: a zero in front stands alone. -/
def wholeDigits? (chars : List Char) : Option (List Char) := do
  let digits ← ungroup? Char.isDigit chars
  if digits.head? == some '0' && digits != ['0'] then none else some digits

/-- An integer that fits into a signed word of 64 bits. -/
def integerWithin? (value : Int) : Option Toml :=
  if -(Int.pow 2 63) ≤ value && value < Int.pow 2 63 then some (.integer value) else none

/-- An integer in a base other than ten, after the letter that names the base. -/
def basedInteger? (base : Nat) (isDigit : Char → Bool) (chars : List Char) : Option Toml := do
  let digits ← ungroup? isDigit chars
  integerWithin? (numberOfDigits base digits)

/-- An integer. -/
def integer? : List Char → Option Toml
  | '0' :: 'x' :: rest => basedInteger? 16 (fun c => (Json.hexValue? c).isSome) rest
  | '0' :: 'o' :: rest => basedInteger? 8 (fun c => '0' ≤ c && c ≤ '7') rest
  | '0' :: 'b' :: rest => basedInteger? 2 (fun c => c == '0' || c == '1') rest
  | chars => do
    let (negative, rest) := splitSign chars
    let digits ← wholeDigits? rest
    let size : Int := numberOfDigits 10 digits
    integerWithin? (if negative then -size else size)

/-- The exponent after its letter; it may begin with zeros. -/
def exponent? (chars : List Char) : Option Int := do
  let (negative, rest) := splitSign chars
  let digits ← ungroup? Char.isDigit rest
  let size : Int := numberOfDigits 10 digits
  some (if negative then -size else size)

/-- The value of a decimal. One that is too large is refused; its negative counterpart is
infinite. -/
def decimalValue? (negative : Bool) (significand : Nat) (power : Int) : Option Toml :=
  if significand == 0 || power < -100000 then some (.decimal 0 0)
  else if Double.holds significand power then
    some (.decimal (if negative then -(significand : Int) else significand) power)
  else if negative then some .nonFinite
  else none

/-- Whether a character opens an exponent. -/
def opensExponent (c : Char) : Bool :=
  c == 'e' || c == 'E'

/-- A decimal with a fraction, an exponent, or both. -/
def decimal? (chars : List Char) : Option Toml := do
  let (negative, rest) := splitSign chars
  let mantissa := rest.takeWhile fun c => !opensExponent c
  let exponent ←
    match rest.dropWhile fun c => !opensExponent c with
    | [] => if mantissa.contains '.' then some 0 else none
    | _ :: digits => exponent? digits
  let whole ← wholeDigits? (mantissa.takeWhile (· != '.'))
  let fraction ←
    match mantissa.dropWhile (· != '.') with
    | [] => some []
    | _ :: digits => ungroup? Char.isDigit digits
  decimalValue? negative (numberOfDigits 10 (whole ++ fraction)) (exponent - fraction.length)

/-- An infinity, or the value that is no number. -/
def nonFinite? (chars : List Char) : Option Toml :=
  let word := (splitSign chars).2
  if word == "inf".toList || word == "nan".toList then some .nonFinite else none

/-- A truth value. -/
def truth? (chars : List Char) : Option Toml :=
  if chars == "true".toList then some (.truth true)
  else if chars == "false".toList then some (.truth false)
  else none

/-- A date, a time of day, or a date with a time and perhaps a distance from universal time. -/
def moment? (chars : List Char) : Option Toml :=
  (readMoment? .ofDocument chars).map .moment

/-- The value that a whole word writes. -/
def scalar? (chars : List Char) : Option Toml :=
  truth? chars <|> moment? chars <|> decimal? chars <|> integer? chars <|> nonFinite? chars

/-- Whether a character may stand in a word. -/
def isWordChar (c : Char) : Bool :=
  c.isAlphanum || c == '+' || c == '-' || c == '.' || c == ':' || c == '_'

/-- Where a word is a date and a space and a digit follow it, the word after the space, which is the
time of that day. -/
def timeAfter (word rest : List Char) : List Char :=
  match readDate? word, rest with
  | some (_, []), ' ' :: c :: more =>
    if c.isDigit then ' ' :: (c :: more).takeWhile isWordChar else []
  | _, _ => []

/-- Reads a word and its value. -/
def readScalar? (chars : List Char) : Option (Toml × List Char) := do
  let word := chars.takeWhile isWordChar
  let word := word ++ timeAfter word (chars.drop word.length)
  some (← scalar? word, chars.drop word.length)

end LanguageClient.Toml
