/-!
# Decimal numerals

Reading a natural number below a bound. A leading plus sign is allowed, and digits are read from
the left, so the first fault from the left decides which error is reported.
-/

namespace LanguageClient

/-- Why a text is no numeral. -/
inductive NumeralError
  /-- The text has no characters. -/
  | empty
  /-- Some character is no decimal digit. -/
  | invalidDigit
  /-- The number does not lie below the bound. -/
  | tooLarge
  deriving DecidableEq

namespace NumeralError

/-- The wording of the fault. -/
def message : NumeralError → String
  | .empty => "cannot parse integer from empty string"
  | .invalidDigit => "invalid digit found in string"
  | .tooLarge => "number too large to fit in target type"

end NumeralError

namespace Numeral

/-- The value of a decimal digit. -/
def digitValue (c : Char) : Nat := c.toNat - '0'.toNat

/-- Reads digits after a number that is already known. -/
def readDigits (bound : Nat) : Nat → List Char → Except NumeralError Nat
  | value, [] => .ok value
  | value, c :: rest =>
    if c.isDigit then
      let next := value * 10 + digitValue c
      if next < bound then readDigits bound next rest else .error .tooLarge
    else .error .invalidDigit

/-- Reads a numeral below the bound, with an optional plus sign in front. -/
def readChars (bound : Nat) : List Char → Except NumeralError Nat
  | [] => .error .empty
  | ['+'] => .error .invalidDigit
  | '+' :: digits => readDigits bound 0 digits
  | digits => readDigits bound 0 digits

/-- Reads a numeral below `2 ^ bits`. -/
def read (bits : Nat) (text : String) : Except NumeralError Nat :=
  readChars (Nat.pow 2 bits) text.toList

end Numeral

end LanguageClient
