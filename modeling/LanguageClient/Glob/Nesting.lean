import LanguageClient.Glob.Matching

/-!
# How deep a pattern is nested

A pattern stands for a regular expression, and such an expression may only be nested up to a limit.
Rows of more than one expression, alternatives, repetitions, groups and classes each are a level; a
single byte is none. Every part of a pattern adds some expressions to the row in which it stands,
and only how deep these are nested matters.
-/

namespace LanguageClient.Glob

/-- How deep expressions are nested that are joined, given how deep each of them is. A single one
is not joined with anything. -/
def joinedDepth : List Nat → Nat
  | [] => 0
  | [depth] => depth
  | depths => 1 + depths.foldl max 0

/-- How deep a class is nested; several ranges are joined in it. -/
def classDepth (ranges : List (Char × Char)) : Nat :=
  1 + joinedDepth ((ranges.flatMap fun range => byteRanges range.1 range.2).map fun _ => 0)

mutual

/-- How deep each of the expressions is nested that a part adds to its row. -/
def partDepths : GlobPart → List Nat
  | .literal c => (String.utf8EncodeChar c).map fun _ => 0
  | .any => [1]
  | .star => [2]
  | .anyFoldersFirst | .anyFoldersBetween => [4]
  | .anyFoldersLast => [0, 1]
  | .oneOf _ ranges => [classDepth ranges]
  | .alternatives branches =>
    match branchDepths branches with
    | [] => []
    | depths => [1 + joinedDepth depths]

/-- How deep each of the expressions is nested that parts add to their row. -/
def rowDepths : List GlobPart → List Nat
  | [] => []
  | part :: rest => partDepths part ++ rowDepths rest

/-- How deep each of the alternatives is nested that is not empty. -/
def branchDepths : List (List GlobPart) → List Nat
  | [] => []
  | branch :: rest =>
    match rowDepths branch with
    | [] => branchDepths rest
    | depths => joinedDepth depths :: branchDepths rest

end

/-- How deep a pattern is nested as a whole. Its row also holds the marks of the first and the last
place. -/
def depth (parts : List GlobPart) : Nat :=
  joinedDepth (0 :: 0 :: rowDepths parts)

/-- How deep a pattern may be nested. -/
def maxDepth : Nat := 250

/-- Whether a pattern is well formed but nested too deeply to be matched. -/
def isTooDeep (pattern : String) : Bool :=
  (parse? pattern).any fun parts => maxDepth < depth parts

end LanguageClient.Glob
