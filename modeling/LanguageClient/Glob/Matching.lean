import LanguageClient.Glob.Pattern
import LanguageClient.Text.Utf8

/-!
# Matching paths against glob patterns

A pattern is turned into a regular expression over bytes, and the expression is matched by the set
of places it can reach: from the places reached so far, each part of the expression computes the
places that can be reached by one more part. A set of places is kept as one truth value for each
place of the path, from before its first byte to after its last, so the work grows with the length
of the path times that of the pattern.
-/

namespace LanguageClient.Glob

/-- A regular expression over bytes. -/
inductive Expr
  /-- One byte that is accepted. -/
  | byte (accepts : UInt8 → Bool)
  /-- Any number of bytes that are accepted. -/
  | many (accepts : UInt8 → Bool)
  | seq (first second : Expr)
  | alt (first second : Expr)

/-- Expressions in a row, where an absent one writes nothing. -/
def seq? : Option Expr → Option Expr → Option Expr
  | some first, some second => some (.seq first second)
  | some first, none => some first
  | none, second => second

/-- Alternatives, of which absent ones do not count. -/
def alt? : Option Expr → Option Expr → Option Expr
  | some first, some second => some (.alt first second)
  | some first, none => some first
  | none, second => second

/-- Every byte. -/
def anyByte (_ : UInt8) : Bool := true

/-- The byte that separates segments. -/
def isSlash (byte : UInt8) : Bool := byte == 0x2F

/-- Every byte within a segment. -/
def notSlash (byte : UInt8) : Bool := byte != 0x2F

/-- A letter of the basic alphabet in the other case. -/
def otherCase (byte : UInt8) : UInt8 :=
  if 0x41 ≤ byte && byte ≤ 0x5A then byte + 0x20
  else if 0x61 ≤ byte && byte ≤ 0x7A then byte - 0x20
  else byte

/-- Accepts what `accepts` does, in either case if case does not matter. -/
def foldCase (ignoreCase : Bool) (accepts : UInt8 → Bool) (byte : UInt8) : Bool :=
  accepts byte || (ignoreCase && accepts (otherCase byte))

/-- The byte ranges of a range of characters: the bytes of its first character, with the last of
them joined to the first byte of its last character. -/
def byteRanges (low high : Char) : List (UInt8 × UInt8) :=
  let first := String.utf8EncodeChar low
  let last := String.utf8EncodeChar high
  if low == high then first.map fun byte => (byte, byte)
  else
    match first.reverse, last with
    | lowByte :: before, highByte :: after =>
      before.reverse.map (fun byte => (byte, byte)) ++ [(lowByte, highByte)] ++
        after.map (fun byte => (byte, byte))
    | _, _ => []

/-- Whether a byte lies in one of the ranges. -/
def inByteRanges (ranges : List (UInt8 × UInt8)) (byte : UInt8) : Bool :=
  ranges.any fun range => range.1 ≤ byte && byte ≤ range.2

/-- A character as the row of its bytes. -/
def literalExpr? (ignoreCase : Bool) (c : Char) : Option Expr :=
  (String.utf8EncodeChar c).foldr
    (fun byte rest => seq? (some (.byte (foldCase ignoreCase (· == byte)))) rest) none

mutual

/-- The expression of one part. -/
def partExpr? (ignoreCase : Bool) : GlobPart → Option Expr
  | .literal c => literalExpr? ignoreCase c
  | .any => some (.byte notSlash)
  | .star => some (.many notSlash)
  | .anyFoldersFirst =>
    some (.alt (.many fun _ => false) (.alt (.byte isSlash) (.seq (.many anyByte) (.byte isSlash))))
  | .anyFoldersLast => some (.seq (.byte isSlash) (.many anyByte))
  | .anyFoldersBetween =>
    some (.alt (.byte isSlash)
      (.seq (.byte isSlash) (.seq (.many anyByte) (.byte isSlash))))
  | .oneOf negated ranges =>
    let bytes := ranges.flatMap fun range => byteRanges range.1 range.2
    some (.byte fun byte => foldCase ignoreCase (inByteRanges bytes) byte != negated)
  | .alternatives branches => branchesExpr? ignoreCase branches

/-- The expression of parts in a row. -/
def partsExpr? (ignoreCase : Bool) : List GlobPart → Option Expr
  | [] => none
  | part :: rest => seq? (partExpr? ignoreCase part) (partsExpr? ignoreCase rest)

/-- The expression of alternatives. -/
def branchesExpr? (ignoreCase : Bool) : List (List GlobPart) → Option Expr
  | [] => none
  | branch :: rest => alt? (partsExpr? ignoreCase branch) (branchesExpr? ignoreCase rest)

end

/-- The expression of a whole pattern; two stars alone match everything. -/
def expr? (ignoreCase : Bool) : List GlobPart → Option Expr
  | [.anyFoldersFirst] => some (.many anyByte)
  | parts => partsExpr? ignoreCase parts

namespace Expr

/-- The places reached after any number of accepted bytes; `carried` tells whether the place before
the last byte was reached and the byte was accepted. -/
def spread (accepts : UInt8 → Bool) : (carried : Bool) → List UInt8 → List Bool → List Bool
  | _, _, [] => []
  | carried, [], here :: _ => [carried || here]
  | carried, b :: bytes, here :: places =>
    let reached := carried || here
    reached :: spread accepts (reached && accepts b) bytes places

/-- The places that the expression reaches from the given places. -/
def reach (bytes : List UInt8) : Expr → List Bool → List Bool
  | .byte accepts, places =>
    false :: List.zipWith (fun b here => here && accepts b) bytes places
  | .many accepts, places => spread accepts false bytes places
  | .seq first second, places => reach bytes second (reach bytes first places)
  | .alt first second, places =>
    List.zipWith (· || ·) (reach bytes first places) (reach bytes second places)

/-- The places of a path of which only the first is reached. -/
def start (bytes : List UInt8) : List Bool :=
  true :: bytes.map fun _ => false

end Expr

/-- Whether the parts of a pattern match the bytes from the first to the last. -/
def accepts (ignoreCase : Bool) (parts : List GlobPart) (bytes : List UInt8) : Bool :=
  match expr? ignoreCase parts with
  | some expr => (expr.reach bytes (Expr.start bytes)).getLast? == some true
  | none => bytes.isEmpty

/-- The part of a path after its last slash. -/
def lastSegment (path : List Char) : List Char :=
  (path.reverse.takeWhile (· != '/')).reverse

/-- Whether a pattern matches a path. A pattern without a slash is matched against the last segment
of the path only, and a malformed pattern matches nothing. -/
def isMatch (pattern path : String) (ignoreCase : Bool) : Bool :=
  match parse? pattern with
  | none => false
  | some parts =>
    let subject := if pattern.toList.contains '/' then path.toList else lastSegment path.toList
    accepts ignoreCase parts (Utf8.encodeChars subject)

end LanguageClient.Glob
