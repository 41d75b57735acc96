/-!
# Blank characters

The characters with the property `White_Space`, and the removal of blanks at the ends of a text.
-/

namespace LanguageClient

/-- The characters with the property `White_Space`. -/
def isBlank (c : Char) : Bool :=
  let code := c.toNat
  (9 ≤ code && code ≤ 13) || code == 0x20 || code == 0x85 || code == 0xA0 || code == 0x1680 ||
    (0x2000 ≤ code && code ≤ 0x200A) || code == 0x2028 || code == 0x2029 || code == 0x202F ||
    code == 0x205F || code == 0x3000

/-- Drops the characters at the end that satisfy `p`. -/
def dropEndWhile (p : Char → Bool) (chars : List Char) : List Char :=
  (chars.reverse.dropWhile p).reverse

/-- Drops the characters at both ends that satisfy `p`. -/
def dropEndsWhile (p : Char → Bool) (chars : List Char) : List Char :=
  dropEndWhile p (chars.dropWhile p)

/-- The text without the blanks at its ends. -/
def trimBlank (text : String) : String :=
  String.ofList (dropEndsWhile isBlank text.toList)

end LanguageClient
