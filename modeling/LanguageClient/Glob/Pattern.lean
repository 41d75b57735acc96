/-!
# Glob patterns

The parts of a glob pattern. Outside classes a backslash takes the next character literally. Two
stars stand for any number of folders where they fill the place between two slashes, and for two
single stars elsewhere. Braces hold alternatives, which may be nested.
-/

namespace LanguageClient

/-- A part of a glob pattern. -/
inductive GlobPart
  | literal (c : Char)
  /-- One byte within a segment. -/
  | any
  /-- Any number of bytes within a segment. -/
  | star
  /-- Two stars at the front, with the slash after them. -/
  | anyFoldersFirst
  /-- Two stars at the end, with the slash before them. -/
  | anyFoldersLast
  /-- Two stars between slashes, with both slashes. -/
  | anyFoldersBetween
  /-- One byte from the ranges, or one from outside them. -/
  | oneOf (negated : Bool) (ranges : List (Char × Char))
  | alternatives (branches : List (List GlobPart))

namespace Glob

/-- Braces that are not closed yet: the alternatives read so far, and what stands before the
opening brace, both in reverse. -/
structure OpenBraces where
  branches : List (List GlobPart)
  before : List GlobPart

/-- How far a pattern has been read. -/
structure Progress where
  /-- The parts of the alternative that is being read, in reverse. -/
  parts : List GlobPart
  /-- The braces around it, the innermost first. -/
  braces : List OpenBraces
  /-- The character that was read last. -/
  last : Option Char

namespace Progress

/-- Appends a part. -/
def push (progress : Progress) (part : GlobPart) (last : Char) : Progress :=
  { progress with parts := part :: progress.parts, last := some last }

/-- Appends two stars that stand for themselves. -/
def pushStars (progress : Progress) : Progress :=
  { progress with parts := .star :: .star :: progress.parts, last := some '*' }

/-- Puts two stars with their slashes in place of the slash before them; folders that are already
there take in these ones. -/
def pushFolders (progress : Progress) (part : GlobPart) (last : Char) : Progress :=
  let parts := match progress.parts with
    | .anyFoldersFirst :: _ | .anyFoldersLast :: _ => progress.parts
    | _ :: before => part :: before
    | [] => [part]
  { progress with parts := parts, last := some last }

/-- Whether two stars may stand for folders here: after a slash, or at the front of an alternative
that was not empty when its comma or brace was written literally. -/
def opensFolders (progress : Progress) : Bool :=
  progress.last == some '/' ||
    (!progress.braces.isEmpty && (progress.last == some ',' || progress.last == some '{'))

/-- Opens braces. -/
def openBraces (progress : Progress) : Progress :=
  ⟨[], ⟨[], progress.parts⟩ :: progress.braces, some '{'⟩

/-- Starts the next alternative, or takes a comma outside braces literally. -/
def comma (progress : Progress) : Progress :=
  match progress.braces with
  | [] => progress.push (.literal ',') ','
  | braces :: outer =>
    ⟨[], ⟨progress.parts.reverse :: braces.branches, braces.before⟩ :: outer, some ','⟩

/-- Closes the innermost braces. -/
def closeBraces? (progress : Progress) : Option Progress :=
  match progress.braces with
  | [] => none
  | braces :: outer =>
    let branches := (progress.parts.reverse :: braces.branches).reverse
    some ⟨.alternatives branches :: braces.before, outer, some '}'⟩

/-- The parts of a pattern that has been read to its end. -/
def finish? (progress : Progress) : Option (List GlobPart) :=
  if progress.braces.isEmpty then some progress.parts.reverse else none

end Progress

/-- The class that is being read: whether it is negated, its ranges in reverse, whether nothing was
read yet, and whether the last character was a hyphen that opens a range. -/
structure OpenClass where
  negated : Bool
  ranges : List (Char × Char)
  isFirst : Bool
  inRange : Bool

namespace OpenClass

/-- Takes a character, or refuses a range that runs backwards. -/
def take? (cls : OpenClass) (c : Char) : Option OpenClass :=
  if cls.inRange then
    match cls.ranges with
    | (low, _) :: rest =>
      if c < low then none
      else some { cls with ranges := (low, c) :: rest, isFirst := false, inRange := false }
    | [] => none
  else if c == '-' && !cls.isFirst then some { cls with inRange := true }
  else some { cls with ranges := (c, c) :: cls.ranges, isFirst := false }

/-- The part that a closed class is; a hyphen at the end stands for itself. -/
def close (cls : OpenClass) : GlobPart :=
  let ranges := if cls.inRange then ('-', '-') :: cls.ranges else cls.ranges
  .oneOf cls.negated ranges.reverse

end OpenClass

/-- Reads the rest of a pattern, within a class if one is open. -/
def readParts (progress : Progress) : Option OpenClass → List Char → Option Progress
  | none, [] => some progress
  | some _, [] => none
  | some cls, c :: rest =>
    if c == ']' && !cls.isFirst then readParts (progress.push cls.close ']') none rest
    else
      match cls.take? c with
      | some cls => readParts progress (some cls) rest
      | none => none
  | none, '?' :: rest => readParts (progress.push .any '?') none rest
  | none, '*' :: '*' :: rest =>
    if progress.parts.isEmpty then
      match rest with
      | [] => some (progress.push .anyFoldersFirst '*')
      | '/' :: rest => readParts (progress.push .anyFoldersFirst '/') none rest
      | rest => readParts progress.pushStars none rest
    else if !progress.opensFolders then readParts progress.pushStars none rest
    else
      match rest with
      | [] => some (progress.pushFolders .anyFoldersLast '*')
      | '/' :: rest => readParts (progress.pushFolders .anyFoldersBetween '/') none rest
      | c :: rest =>
        if (c == ',' || c == '}') && !progress.braces.isEmpty then
          readParts (progress.pushFolders .anyFoldersLast '*') none (c :: rest)
        else readParts progress.pushStars none (c :: rest)
  | none, '*' :: rest => readParts (progress.push .star '*') none rest
  | none, '[' :: c :: rest =>
    if c == '!' || c == '^' then readParts progress (some ⟨true, [], true, false⟩) rest
    else readParts progress (some ⟨false, [], true, false⟩) (c :: rest)
  | none, ['['] => none
  | none, '{' :: rest => readParts progress.openBraces none rest
  | none, '}' :: rest =>
    match progress.closeBraces? with
    | some progress => readParts progress none rest
    | none => none
  | none, ',' :: rest => readParts progress.comma none rest
  | none, '\\' :: c :: rest => readParts (progress.push (.literal c) c) none rest
  | none, ['\\'] => none
  | none, c :: rest => readParts (progress.push (.literal c) c) none rest
termination_by _ chars => chars.length

/-- The parts of a pattern, unless it is malformed. -/
def parse? (pattern : String) : Option (List GlobPart) := do
  let progress ← readParts ⟨[], [], none⟩ none pattern.toList
  progress.finish?

end Glob

end LanguageClient
