import LanguageClient.Proofs.Document.Reading
import Mathlib.Data.List.TakeWhile

/-!
# Positions at line ends

The position that is told for an offset is looked up in another text that begins in the same way,
with the table of that text. It leads back to the offset, with two exceptions. An offset between a
carriage return and its line feed is told as a place behind the content of the line, which is no
place in any text. And an offset after a carriage return alone is the start of a line, which moves
behind the line feed if one follows in the other text.
-/

namespace LanguageClient

namespace Text

section Lines

/-- The parts of a text that share a line end. -/
theorem exists_of_joins {before rest : List Char} (hseam : joins before rest = true) :
    ∃ shorter later, before = shorter ++ ['\r'] ∧ rest = '\n' :: later := by
  obtain ⟨hreturn, hfeed⟩ : before.getLast? = some '\r' ∧ rest.head? = some '\n' := by
    simpa [joins] using hseam
  obtain ⟨shorter, hshorter⟩ := List.getLast?_eq_some_iff.mp hreturn
  obtain ⟨later, hlater⟩ := List.head?_eq_some_iff.mp hfeed
  exact ⟨shorter, later, hshorter, hlater⟩

/-- No line end is shared with a carriage return. -/
theorem joins_return (before rest : List Char) : joins before ('\r' :: rest) = false := by
  simp [joins]

/-- What follows further on does not matter for a shared line end. -/
theorem joins_append_right {middle : List Char} (hmiddle : middle ≠ []) (before rest : List Char) :
    joins before (middle ++ rest) = joins before middle := by
  rw [joins, joins, List.head?_append_of_ne_nil _ hmiddle]

/-- A text that ends with a line end has its last line start behind it. -/
theorem getLast?_lineStarts_concat {c : Char} (hend : isLineEnd c = true) (before : List Char) :
    (lineStarts (before ++ [c])).getLast? = some (byteSize (before ++ [c])) := by
  cases hseam : joins before [c] with
  | false =>
    have hlone : joins [c] [] = false := by simp [joins]
    rw [lineStarts, lineStartsFrom_append hseam, lineStartsFrom_cons hlone, if_pos hend,
      lineStartsFrom, ← List.cons_append, List.getLast?_concat, Nat.zero_add, byteSize_append]
    rfl
  | true =>
    obtain ⟨shorter, later, rfl, hfeed⟩ := exists_of_joins hseam
    obtain rfl := (List.cons.inj hfeed).1
    rw [List.append_assoc, List.singleton_append, lineStarts,
      lineStartsFrom_append (joins_return _ _),
      lineStartsFrom, lineStartsFrom, ← List.cons_append, List.getLast?_concat, Nat.zero_add,
      byteSize_append]
    rfl

/-- The last line of a text starts at its last line start, and no line end is in it. -/
theorem exists_openLine (before : List Char) :
    ∃ lines line, before = lines ++ line ∧ (∀ c ∈ line, isLineEnd c = false) ∧
      (lineStarts before).getLast? = some (byteSize lines) := by
  induction before using List.reverseRecOn with
  | nil => exact ⟨[], [], rfl, by simp, rfl⟩
  | append_singleton before c ih =>
    cases hend : isLineEnd c with
    | true =>
      exact ⟨before ++ [c], [], (List.append_nil _).symm, by simp,
        getLast?_lineStarts_concat hend before⟩
    | false =>
      obtain ⟨lines, line, rfl, hline, hlast⟩ := ih
      have hseam : joins (lines ++ line) [c] = false := by
        have hfeed : c ≠ '\n' := by
          rintro rfl
          cases hend
        simp [joins, hfeed]
      have hlone : joins [c] [] = false := by simp [joins]
      refine ⟨lines, line ++ [c], by rw [List.append_assoc], ?_, ?_⟩
      · intro other hother
        rcases List.mem_append.mp hother with hold | hnew
        · exact hline other hold
        · rwa [List.mem_singleton.mp hnew]
      · rw [lineStarts, lineStartsFrom_append hseam, lineStartsFrom_cons hlone, hend]
        simpa [lineStarts, lineStartsFrom] using hlast

/-- Line ends are only dropped from behind the content of a line. -/
theorem dropLineEnds_append {line : List Char} (hline : ∀ c ∈ line, isLineEnd c = false)
    (rest : List Char) : dropLineEnds (line ++ rest) = line ++ dropLineEnds rest := by
  have hkept : line.reverse.dropWhile isLineEnd = line.reverse := by
    cases hreverse : line.reverse with
    | nil => rfl
    | cons c _ =>
      have hmem : c ∈ line := List.mem_reverse.mp (hreverse ▸ List.mem_cons_self)
      rw [List.dropWhile_cons_of_neg (by rw [hline c hmem]; exact Bool.false_ne_true)]
  rw [dropLineEnds, dropLineEnds, List.reverse_append, List.dropWhile_append, hkept]
  split
  · rename_i hnone
    rw [List.isEmpty_iff.mp hnone, List.reverse_nil, List.append_nil, List.reverse_reverse]
  · rw [List.reverse_append, List.reverse_reverse]

/-- The bytes up to an offset beyond a boundary are those before it, and then some of those
after it. -/
theorem takeBytes_add (before rest : List Char) (offset : Nat) :
    takeBytes (byteSize before + offset) (before ++ rest) = before ++ takeBytes offset rest := by
  induction before with
  | nil => rw [byteSize_nil, Nat.zero_add, List.nil_append, List.nil_append]
  | cons c before ih =>
    obtain ⟨total, htotal⟩ := exists_succ_eq c (byteSize before + offset)
    have hrest : total + 1 - c.utf8Size = byteSize before + offset := by omega
    rw [byteSize_cons, Nat.add_assoc, htotal, List.cons_append, takeBytes, hrest, ih,
      List.cons_append]

/-- The lines of a text that starts further on start further on. -/
theorem lineStartsFrom_add (base offset : Nat) (text : List Char) :
    lineStartsFrom (base + offset) text = (lineStartsFrom offset text).map (base + ·) := by
  induction offset, text using lineStartsFrom.induct with
  | case1 => rfl
  | case2 offset rest ih =>
    rw [lineStartsFrom, lineStartsFrom, Nat.add_assoc, ih]
    rfl
  | case3 offset c rest hother next hend ih =>
    rw [lineStartsFrom, lineStartsFrom, if_pos hend, if_pos hend, Nat.add_assoc, ih]
    · rfl
    · exact hother
    · exact hother
  | case4 offset c rest hother next hend ih =>
    rw [lineStartsFrom, lineStartsFrom, if_neg hend, if_neg hend, Nat.add_assoc, ih]
    · exact hother
    · exact hother

/-- The first line of a text, with its end. -/
def firstLine (text : List Char) : List Char :=
  takeBytes ((lineStartsFrom 0 text).head?.getD (byteSize text)) text

/-- A line end by itself, with or without its line feed, is a line. -/
theorem mem_firstLine_return {c : Char} {rest : List Char}
    (hmem : c ∈ firstLine ('\r' :: rest)) : isLineEnd c = true := by
  cases hseam : joins ['\r'] rest with
  | false =>
    rw [firstLine, lineStartsFrom_cons hseam] at hmem
    have hone : takeBytes ('\r'.utf8Size) ('\r' :: rest) = ['\r'] := takeBytes_append ['\r'] rest
    simp only [isLineEnd, beq_self_eq_true, Bool.true_or, if_true, List.head?_cons,
      Option.getD_some, Nat.zero_add, hone, List.mem_singleton] at hmem
    rw [hmem]
    rfl
  | true =>
    obtain ⟨later, rfl⟩ : ∃ later, rest = '\n' :: later :=
      List.head?_eq_some_iff.mp (by simpa [joins] using hseam)
    have htwo : takeBytes 2 ('\r' :: '\n' :: later) = ['\r', '\n'] :=
      takeBytes_append ['\r', '\n'] later
    simp only [firstLine, lineStartsFrom, List.head?_cons, Option.getD_some, Nat.zero_add, htwo,
      List.mem_cons, List.not_mem_nil, or_false] at hmem
    rcases hmem with rfl | rfl <;> rfl

/-- Nothing is left of a line that consists of its end. -/
theorem dropLineEnds_eq_nil {text : List Char} (htext : ∀ c ∈ text, isLineEnd c = true) :
    dropLineEnds text = [] := by
  rw [dropLineEnds, List.reverse_eq_nil_iff, List.dropWhile_eq_nil_iff]
  exact fun c hc => htext c (List.mem_reverse.mp hc)

/-- The bytes from an offset beyond a boundary on are some of those after it. -/
theorem dropBytes_add (before rest : List Char) (offset : Nat) :
    dropBytes (byteSize before + offset) (before ++ rest) = dropBytes offset rest := by
  induction before with
  | nil => rw [byteSize_nil, Nat.zero_add, List.nil_append]
  | cons c before ih =>
    obtain ⟨total, htotal⟩ := exists_succ_eq c (byteSize before + offset)
    have hrest : total + 1 - c.utf8Size = byteSize before + offset := by omega
    rw [byteSize_cons, Nat.add_assoc, htotal, List.cons_append, dropBytes, hrest, ih]

end Lines

section Units

variable {encoding : PositionEncoding}

/-- The units of a line lead to its end. -/
theorem bytesOfUnits?_append (line rest : List Char) :
    bytesOfUnits? encoding (unitCount encoding line) (line ++ rest) = some (byteSize line) := by
  induction line with
  | nil => cases rest <;> rfl
  | cons c line ih =>
    have hpos := units_pos c encoding
    obtain ⟨units, hunits⟩ : ∃ units, encoding.units c + unitCount encoding line = units + 1 :=
      ⟨encoding.units c + unitCount encoding line - 1, by omega⟩
    have hrest : units + 1 - encoding.units c = unitCount encoding line := by omega
    rw [unitCount_cons, hunits, List.cons_append, bytesOfUnits?, if_pos (by omega), hrest, ih]
    rfl

theorem unitCount_append (before rest : List Char) :
    unitCount encoding (before ++ rest) = unitCount encoding before + unitCount encoding rest := by
  induction before with
  | nil => exact (Nat.zero_add _).symm
  | cons c before ih =>
    rw [List.cons_append, unitCount_cons, unitCount_cons, ih, Nat.add_assoc]

/-- There are no more units than those of the line. -/
theorem bytesOfUnits?_eq_none {line : List Char} {units : Nat}
    (hbeyond : unitCount encoding line < units) : bytesOfUnits? encoding units line = none := by
  induction line generalizing units with
  | nil =>
    obtain ⟨fewer, rfl⟩ := Nat.exists_eq_add_one_of_ne_zero (Nat.ne_of_gt hbeyond)
    rfl
  | cons c line ih =>
    rw [unitCount_cons] at hbeyond
    obtain ⟨fewer, rfl⟩ := Nat.exists_eq_add_one_of_ne_zero (Nat.ne_zero_of_lt hbeyond)
    have hrest : unitCount encoding line < fewer + 1 - encoding.units c := by omega
    rw [bytesOfUnits?, if_pos (by omega), ih hrest]
    rfl

/-- A position in the last line of a text, looked up in a text that goes on with no line end across
the seam: the line goes on with the first line that follows. -/
theorem offsetAt?_append {lines line rest : List Char} (hseam : joins (lines ++ line) rest = false)
    (hline : ∀ c ∈ line, isLineEnd c = false)
    (hlast : (lineStarts (lines ++ line)).getLast? = some (byteSize lines)) {position : Position}
    (hposition : position.line.toNat = (lineStarts (lines ++ line)).length - 1) :
    offsetAt? (lines ++ line ++ rest) (lineStarts (lines ++ line ++ rest)) position encoding =
      (bytesOfUnits? encoding position.character.toNat
        (line ++ dropLineEnds (firstLine rest))).map (byteSize lines + ·) := by
  have hlines : lineStarts (lines ++ line ++ rest) = lineStarts (lines ++ line) ++
      (lineStartsFrom 0 rest).map (byteSize (lines ++ line) + ·) := by
    rw [lineStarts, lineStartsFrom_append hseam, Nat.zero_add,
      ← Nat.add_zero (byteSize (lines ++ line)), lineStartsFrom_add]
    rfl
  have hcount : 0 < (lineStarts (lines ++ line)).length := Nat.succ_pos _
  have hstart : (lineStarts (lines ++ line ++ rest))[position.line.toNat]? =
      some (byteSize lines) := by
    rw [hlines, hposition, List.getElem?_append_left (by omega), ← List.getLast?_eq_getElem?, hlast]
  have hnext : ((lineStarts (lines ++ line ++ rest))[position.line.toNat + 1]?).getD
      (byteSize (lines ++ line ++ rest)) = byteSize lines + (byteSize line +
        (lineStartsFrom 0 rest).head?.getD (byteSize rest)) := by
    rw [hlines, hposition, List.getElem?_append_right (by omega), Nat.sub_add_cancel hcount,
      Nat.sub_self, ← List.head?_eq_getElem?, List.head?_map]
    cases (lineStartsFrom 0 rest).head? <;> simp [Nat.add_assoc]
  have hslice : slice (byteSize lines) (byteSize lines + (byteSize line +
      (lineStartsFrom 0 rest).head?.getD (byteSize rest))) (lines ++ line ++ rest) =
        line ++ firstLine rest := by
    rw [slice, List.append_assoc, dropBytes_append, Nat.add_sub_cancel_left, takeBytes_add]
    rfl
  simp only [offsetAt?, hstart, hnext, hslice, dropLineEnds_append hline, bind, Option.bind_some]
  cases bytesOfUnits? encoding position.character.toNat (line ++ dropLineEnds (firstLine rest)) <;>
    rfl

/-- The line and the character of the position that is told for an offset. -/
theorem positionAt?_eq {text : List Char} {offset : Nat} {position : Position} {lines : List Nat}
    (hposition : positionAt? text (lineStarts text) offset encoding = some position)
    (hlines : (lineStarts text).takeWhile (· ≤ offset) = lines) {start : Nat}
    (hstart : lines.getLast? = some start) :
    position.line.toNat = lines.length - 1 ∧
      position.character.toNat = unitCount encoding (slice start offset text) := by
  unfold positionAt? at hposition
  split at hposition
  · simp only [hlines, hstart, bind, Option.bind_some] at hposition
    obtain ⟨line, hline, hposition⟩ := Option.bind_eq_some_iff.mp hposition
    obtain ⟨character, hcharacter, hposition⟩ := Option.bind_eq_some_iff.mp hposition
    obtain rfl := Option.some.inj hposition
    exact ⟨word?_toNat hline, word?_toNat hcharacter⟩
  · cases hposition

/-- The lines that start up to an offset within a line end are those of the text before it. -/
theorem takeWhile_lineStarts_within (shorter later : List Char) :
    (lineStarts (shorter ++ '\r' :: '\n' :: later)).takeWhile
      (· ≤ byteSize (shorter ++ ['\r'])) = lineStarts shorter := by
  rw [byteSize_append]
  refine takeWhile_lineStarts (joins_return _ _) (Nat.le_add_right _ _) fun start hstart => ?_
  rw [lineStartsFrom] at hstart
  rcases List.mem_cons.mp hstart with rfl | hlater
  · exact Nat.lt_succ_self _
  · exact Nat.lt_of_succ_lt (mem_lineStartsFrom hlater).1

/-- The position that is told for an offset between a carriage return and its line feed is no place
in any text that begins in the same way. -/
theorem offsetAt?_within {before rest : List Char} (hseam : joins before rest = true)
    {position : Position} (hposition : positionAt? (before ++ rest) (lineStarts (before ++ rest))
      (byteSize before) encoding = some position) (other : List Char) :
    offsetAt? (before ++ other) (lineStarts (before ++ other)) position encoding = none := by
  obtain ⟨shorter, later, rfl, rfl⟩ := exists_of_joins hseam
  obtain ⟨lines, line, rfl, hline, hlast⟩ := exists_openLine shorter
  have hstarts : (lineStarts (lines ++ line ++ ['\r'] ++ '\n' :: later)).takeWhile
      (· ≤ byteSize (lines ++ line ++ ['\r'])) = lineStarts (lines ++ line) := by
    rw [List.append_assoc (lines ++ line), List.singleton_append]
    exact takeWhile_lineStarts_within (lines ++ line) later
  obtain ⟨hnumber, hcharacter⟩ := positionAt?_eq hposition hstarts hlast
  have hslice : slice (byteSize lines) (byteSize (lines ++ line ++ ['\r']))
      (lines ++ line ++ ['\r'] ++ '\n' :: later) = line ++ ['\r'] := by
    rw [List.append_assoc lines line, byteSize_append lines, slice_append]
  have hreturn := units_pos '\r' encoding
  rw [hslice, unitCount_append, unitCount_cons] at hcharacter
  rw [List.append_assoc (lines ++ line), List.singleton_append,
    offsetAt?_append (joins_return _ _) hline hlast hnumber, hcharacter,
    dropLineEnds_eq_nil fun c hc => mem_firstLine_return hc, List.append_nil,
    bytesOfUnits?_eq_none (by omega)]
  rfl

/-- The position that is told for an offset leads back to it in every text that begins in the same
way, unless a line feed follows there that belongs to a carriage return before the offset: then it
leads behind the line feed. -/
theorem offsetAt?_positionAt? {before rest : List Char} (hseam : joins before rest = false)
    {position : Position} (hposition : positionAt? (before ++ rest) (lineStarts (before ++ rest))
      (byteSize before) encoding = some position) (other : List Char) :
    offsetAt? (before ++ other) (lineStarts (before ++ other)) position encoding =
      some (byteSize before + (joins before other).toNat) := by
  obtain ⟨lines, line, rfl, hline, hlast⟩ := exists_openLine before
  obtain ⟨hnumber, hcharacter⟩ :=
    positionAt?_eq hposition (takeWhile_lineStarts_append hseam) hlast
  rw [byteSize_append, slice_append] at hcharacter
  cases hother : joins (lines ++ line) other with
  | false =>
    rw [offsetAt?_append hother hline hlast hnumber, hcharacter, bytesOfUnits?_append,
      byteSize_append]
    rfl
  | true =>
    obtain ⟨shorter, later, hbefore, rfl⟩ := exists_of_joins hother
    obtain rfl : line = [] := by
      by_contra hnonempty
      have hreturn : '\r' ∈ line := by
        refine List.mem_of_getLast? ?_
        rw [← List.getLast?_append_of_ne_nil lines hnonempty, hbefore, List.getLast?_concat]
      cases hline '\r' hreturn
    rw [List.append_nil] at hbefore hnumber ⊢
    subst hbefore
    -- the line feed belongs to the line end before it and starts no other line
    have hwhole : shorter ++ ['\r'] ++ '\n' :: later =
        shorter ++ ['\r'] ++ ['\n'] ++ [] ++ later := by simp
    have hcount : (lineStarts (shorter ++ ['\r'] ++ ['\n'] ++ [])).length =
        (lineStarts (shorter ++ ['\r'])).length := by
      rw [List.append_nil, List.append_assoc, List.singleton_append, lineStarts, lineStarts,
        lineStartsFrom_append (joins_return _ _), lineStartsFrom_append (joins_return _ _)]
      simp [lineStartsFrom]
    have hlater : joins (shorter ++ ['\r'] ++ ['\n'] ++ []) later = false := by simp [joins]
    have hlast' : (lineStarts (shorter ++ ['\r'] ++ ['\n'] ++ [])).getLast? =
        some (byteSize (shorter ++ ['\r'] ++ ['\n'])) := by
      rw [List.append_nil]
      exact getLast?_lineStarts_concat rfl _
    rw [hwhole, offsetAt?_append hlater (by simp) hlast' (hcount ▸ hnumber), hcharacter,
      bytesOfUnits?_append, byteSize_append (shorter ++ ['\r'])]
    rfl

end Units

end Text

end LanguageClient
