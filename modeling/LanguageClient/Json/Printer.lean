import LanguageClient.Json.Basic

/-!
# Writing JSON

A value has a compact text, without blanks between tokens, and a text that is spread over lines for
reading. In both, only quotes, backslashes and control characters of texts are escaped.
-/

namespace LanguageClient.Json

/-- A hexadecimal digit in lower case. -/
def hexDigit (n : Nat) : Char := Nat.digitChar n

/-- One character between the quotes of a JSON text. -/
def escapeChar (c : Char) : List Char :=
  if c == '"' then ['\\', '"']
  else if c == '\\' then ['\\', '\\']
  else if c == '\x08' then ['\\', 'b']
  else if c == '\x0c' then ['\\', 'f']
  else if c == '\n' then ['\\', 'n']
  else if c == '\r' then ['\\', 'r']
  else if c == '\t' then ['\\', 't']
  else if c.toNat < 0x20 then
    ['\\', 'u', '0', '0', hexDigit (c.toNat / 16), hexDigit (c.toNat % 16)]
  else [c]

/-- The JSON form of a text. -/
def printText (text : String) : List Char :=
  '"' :: text.toList.flatMap escapeChar ++ ['"']

/-- An integer in decimal digits, with a minus sign where it is negative. -/
def printInt : Int → List Char
  | .ofNat n => Nat.toDigits 10 n
  | .negSucc n => '-' :: Nat.toDigits 10 (n + 1)

mutual

/-- The characters of a value. -/
def printChars : Json → List Char
  | .null => "null".toList
  | .bool true => "true".toList
  | .bool false => "false".toList
  | .int value => printInt value
  | .decimal significand exponent => printInt significand ++ 'e' :: printInt exponent
  | .str text => printText text
  | .arr items => '[' :: printItems items ++ [']']
  | .obj fields => '{' :: printFields fields ++ ['}']

/-- The items of an array, separated by commas. -/
def printItems : List Json → List Char
  | [] => []
  | [item] => printChars item
  | item :: rest => printChars item ++ ',' :: printItems rest

/-- The members of an object, separated by commas. -/
def printFields : List (String × Json) → List Char
  | [] => []
  | [(name, value)] => printText name ++ ':' :: printChars value
  | (name, value) :: rest => printText name ++ ':' :: printChars value ++ ',' :: printFields rest

end

/-- The compact text of a value. -/
def print (value : Json) : String :=
  String.ofList (printChars value)

/-- The start of a line, behind two blanks for each level of nesting. -/
def lineStart (depth : Nat) : List Char :=
  '\n' :: List.replicate (2 * depth) ' '

mutual

/-- The characters of a value that is spread over lines, at a depth of nesting. -/
def spreadChars (depth : Nat) : Json → List Char
  | .arr (item :: rest) => '[' :: spreadItems (depth + 1) (item :: rest) ++ lineStart depth ++ [']']
  | .obj (field :: rest) =>
    '{' :: spreadFields (depth + 1) (field :: rest) ++ lineStart depth ++ ['}']
  | value => printChars value

/-- The items of an array, each on a line of its own. -/
def spreadItems (depth : Nat) : List Json → List Char
  | [] => []
  | [item] => lineStart depth ++ spreadChars depth item
  | item :: rest => lineStart depth ++ spreadChars depth item ++ ',' :: spreadItems depth rest

/-- The members of an object, each on a line of its own. -/
def spreadFields (depth : Nat) : List (String × Json) → List Char
  | [] => []
  | [(name, value)] =>
    lineStart depth ++ printText name ++ ':' :: ' ' :: spreadChars depth value
  | (name, value) :: rest =>
    lineStart depth ++ printText name ++ ':' :: ' ' :: spreadChars depth value ++
      ',' :: spreadFields depth rest

end

/-- The text of a value that is spread over lines. -/
def printSpread (value : Json) : String :=
  String.ofList (spreadChars 0 value)

end LanguageClient.Json
