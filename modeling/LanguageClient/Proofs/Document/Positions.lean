import LanguageClient.Document.Basic
import LanguageClient.Proofs.Document.LineEnds
import Mathlib.Algebra.Group.Nat.Defs

/-!
# Offsets and positions of one text

Within one text and its own table, every offset between two characters has a position as long as the
numbers fit into words. Positions grow with the offsets, and each offset is found again under its
position, unless it lies within a line end. The other way round, what a position stands for is
always told as that position.
-/

namespace LanguageClient

/-- Positions are ordered by their lines and then by their characters. -/
def Position.IsBefore (position later : Position) : Prop :=
  position.line < later.line ∨
    position.line = later.line ∧ position.character < later.character

namespace Text

section Lines

/-- A text is divided at the end of each of its beginnings. -/
theorem isBoundary_append (before rest : List Char) :
    isBoundary (byteSize before) (before ++ rest) = true := by
  induction before with
  | nil => cases rest <;> rfl
  | cons c before ih =>
    obtain ⟨offset, hoffset⟩ := exists_succ_eq c (byteSize before)
    have hrest : offset + 1 - c.utf8Size = byteSize before := by omega
    have hfits : c.utf8Size ≤ offset + 1 := by omega
    rw [byteSize_cons, hoffset, List.cons_append, isBoundary, hrest, ih, decide_eq_true hfits]
    rfl

/-- A text is divided at the start of each of its lines. -/
theorem split_of_mem_lineStartsFrom {base start : Nat} {text : List Char}
    (hstart : start ∈ lineStartsFrom base text) :
    ∃ lines rest, text = lines ++ rest ∧ base + byteSize lines = start := by
  -- what stands before the lines of the rest belongs to the lines of the whole text
  have hfurther (base : Nat) (first : List Char) {rest : List Char}
      (hrest : ∃ lines later, rest = lines ++ later ∧
        base + byteSize first + byteSize lines = start) :
      ∃ lines later, first ++ rest = lines ++ later ∧ base + byteSize lines = start := by
    obtain ⟨lines, later, rfl, hsize⟩ := hrest
    refine ⟨first ++ lines, later, (List.append_assoc _ _ _).symm, ?_⟩
    rw [byteSize_append, ← Nat.add_assoc, hsize]
  induction base, text using lineStartsFrom.induct with
  | case1 base => cases hstart
  | case2 base rest ih =>
    rw [lineStartsFrom] at hstart
    rcases List.mem_cons.mp hstart with rfl | hlater
    · exact ⟨['\r', '\n'], rest, rfl, rfl⟩
    · exact hfurther base ['\r', '\n'] (ih hlater)
  | case3 base c rest hother next hend ih =>
    rw [lineStartsFrom, if_pos hend] at hstart
    · rcases List.mem_cons.mp hstart with rfl | hlater
      · exact ⟨[c], rest, rfl, rfl⟩
      · exact hfurther base [c] (ih hlater)
    · exact hother
  | case4 base c rest hother next hend ih =>
    rw [lineStartsFrom, if_neg hend] at hstart
    · exact hfurther base [c] (ih hstart)
    · exact hother

/-- Each line starts behind the one before it. -/
theorem ascends_lineStartsFrom (base : Nat) (text : List Char) :
    (lineStartsFrom base text).Pairwise (· < ·) := by
  induction base, text using lineStartsFrom.induct with
  | case1 base => exact .nil
  | case2 base rest ih =>
    rw [lineStartsFrom]
    exact .cons (fun start hstart => (mem_lineStartsFrom hstart).1) ih
  | case3 base c rest hother next hend ih =>
    rw [lineStartsFrom, if_pos hend]
    · exact .cons (fun start hstart => (mem_lineStartsFrom hstart).1) ih
    · exact hother
  | case4 base c rest hother next hend ih =>
    rw [lineStartsFrom, if_neg hend]
    · exact ih
    · exact hother

theorem ascends_lineStarts (text : List Char) : (lineStarts text).Pairwise (· < ·) :=
  .cons (fun _ hstart => (mem_lineStartsFrom hstart).1) (ascends_lineStartsFrom 0 text)

/-- Of ascending numbers, those up to the one at a place are those up to that place. -/
theorem takeWhile_le_getElem {numbers : List Nat} (hascends : numbers.Pairwise (· < ·))
    {n bound : Nat} (hbound : numbers[n]? = some bound) :
    numbers.takeWhile (· ≤ bound) = numbers.take (n + 1) := by
  induction numbers generalizing n with
  | nil => cases hbound
  | cons first rest ih =>
    obtain ⟨hfirst, hrest⟩ := List.pairwise_cons.mp hascends
    cases n with
    | zero =>
      obtain rfl := Option.some.inj hbound
      cases rest with
      | nil => simp
      | cons second rest =>
        have hsecond := hfirst second List.mem_cons_self
        simp [hsecond]
    | succ n =>
      have hbelow := hfirst bound (List.mem_of_getElem? hbound)
      rw [List.takeWhile_cons_of_pos (by simpa using Nat.le_of_lt hbelow), ih hrest hbound,
        List.take_succ_cons]

/-- Numbers up to a bound come first among those up to a larger one. -/
theorem takeWhile_le_prefix {bound larger : Nat} (hle : bound ≤ larger) (numbers : List Nat) :
    numbers.takeWhile (· ≤ bound) <+: numbers.takeWhile (· ≤ larger) := by
  have htwice : (numbers.takeWhile (· ≤ larger)).takeWhile (· ≤ bound) =
      numbers.takeWhile (· ≤ bound) := by
    rw [List.takeWhile_takeWhile]
    congr 1
    funext n
    rw [Bool.eq_iff_iff]
    simp
    omega
  rw [← htwice]
  exact List.takeWhile_prefix _

/-- The text before an offset ends in a part of a line, which starts at the last line start up to
the offset. -/
theorem exists_lineOf (before rest : List Char) : ∃ lines line, before = lines ++ line ∧
    ((lineStarts (before ++ rest)).takeWhile (· ≤ byteSize before)).getLast? =
      some (byteSize lines) := by
  cases hseam : joins before rest with
  | false =>
    obtain ⟨lines, line, rfl, -, hlast⟩ := exists_openLine before
    exact ⟨lines, line, rfl, by rw [takeWhile_lineStarts_append hseam, hlast]⟩
  | true =>
    obtain ⟨shorter, later, rfl, rfl⟩ := exists_of_joins hseam
    obtain ⟨lines, line, rfl, -, hlast⟩ := exists_openLine shorter
    refine ⟨lines, line ++ ['\r'], List.append_assoc _ _ _, ?_⟩
    rw [← hlast, ← takeWhile_lineStarts_within (lines ++ line) later, List.append_assoc _ ['\r']]
    rfl

/-- The text up to the start of a line has as many lines as stand before it, and one that is
empty. -/
theorem exists_of_lineStart {n start : Nat} {text : List Char}
    (hstart : (lineStarts text)[n]? = some start) :
    ∃ lines rest, text = lines ++ rest ∧ byteSize lines = start ∧ joins lines rest = false ∧
      (lineStarts lines).getLast? = some (byteSize lines) ∧ (lineStarts lines).length = n + 1 := by
  obtain ⟨lines, rest, rfl, rfl⟩ : ∃ lines rest, text = lines ++ rest ∧ byteSize lines = start := by
    rcases List.mem_cons.mp (List.mem_of_getElem? hstart) with rfl | hlater
    · exact ⟨[], text, rfl, rfl⟩
    · obtain ⟨lines, rest, hsplit, hsize⟩ := split_of_mem_lineStartsFrom hlater
      exact ⟨lines, rest, hsplit, by rwa [Nat.zero_add] at hsize⟩
  have htaken := takeWhile_le_getElem (ascends_lineStarts _) hstart
  have hlt := (List.getElem?_eq_some_iff.mp hstart).1
  have hlast : ((lineStarts (lines ++ rest)).take (n + 1)).getLast? = some (byteSize lines) := by
    rw [List.getLast?_take, if_neg (Nat.succ_ne_zero n), Nat.add_sub_cancel, hstart, Option.some_or]
  have hseam : joins lines rest = false := by
    by_contra hjoins
    obtain ⟨shorter, later, rfl, rfl⟩ := exists_of_joins (Bool.not_eq_false _ ▸ hjoins)
    -- within a line end the last line has started before the carriage return
    have hwithin := takeWhile_lineStarts_within shorter later
    rw [List.append_assoc, List.singleton_append] at htaken hlast
    rw [htaken] at hwithin
    rw [hwithin] at hlast
    rcases List.mem_cons.mp (List.mem_of_getLast? hlast) with hzero | hlater
    · rw [byteSize_append] at hzero
      cases hzero
    · have hbounds := (mem_lineStartsFrom hlater).2
      have hreturn : byteSize ['\r'] = 1 := rfl
      rw [byteSize_append] at hbounds
      omega
  rw [takeWhile_lineStarts_append hseam] at htaken
  refine ⟨lines, rest, rfl, rfl, hseam, htaken ▸ hlast, ?_⟩
  rw [htaken, List.length_take]
  omega

/-- What is left of the first line without its end is the text up to the first line end. -/
theorem dropLineEnds_firstLine (text : List Char) :
    dropLineEnds (firstLine text) = text.takeWhile fun c => !isLineEnd c := by
  induction text with
  | nil => rfl
  | cons c rest ih =>
    cases hend : isLineEnd c with
    | true =>
      rw [List.takeWhile_cons_of_neg (by simp [hend])]
      refine dropLineEnds_eq_nil fun other hother => ?_
      obtain rfl | rfl : c = '\r' ∨ c = '\n' := by simpa [isLineEnd] using hend
      · exact mem_firstLine_return hother
      · have hone : firstLine ('\n' :: rest) = ['\n'] := by
          rw [firstLine, lineStartsFrom_cons rfl]
          exact takeBytes_append ['\n'] rest
        rw [hone, List.mem_singleton] at hother
        rwa [hother]
    | false =>
      have hseam : joins [c] rest = false := by
        refine joins_of_not_mem (fun hmem => ?_) rest
        rw [← List.mem_singleton.mp hmem] at hend
        cases hend
      have hlines : lineStartsFrom 0 (c :: rest) =
          (lineStartsFrom 0 rest).map (c.utf8Size + ·) := by
        rw [lineStartsFrom_cons hseam, hend, ← lineStartsFrom_add, Nat.zero_add]
        rfl
      have hfirst : firstLine (c :: rest) = [c] ++ firstLine rest := by
        rw [firstLine, firstLine, hlines, List.head?_map]
        cases (lineStartsFrom 0 rest).head? with
        | none => exact takeBytes_add [c] rest (byteSize rest)
        | some start => exact takeBytes_add [c] rest start
      rw [hfirst, dropLineEnds_append (by simpa using hend), ih,
        List.takeWhile_cons_of_pos (by simp [hend])]
      rfl

end Lines

section Units

variable {encoding : PositionEncoding} {text : List Char}

/-- A text that is not empty takes units. -/
theorem unitCount_pos (htext : text ≠ []) : 0 < unitCount encoding text := by
  obtain ⟨c, rest, rfl⟩ := List.exists_cons_of_ne_nil htext
  exact Nat.lt_of_lt_of_le (units_pos c encoding) (Nat.le_add_right _ _)

/-- There are no more line ends than units. -/
theorem length_lineStartsFrom_le (encoding : PositionEncoding) (base : Nat) (text : List Char) :
    (lineStartsFrom base text).length ≤ unitCount encoding text := by
  induction base, text using lineStartsFrom.induct with
  | case1 base => exact Nat.zero_le _
  | case2 base rest ih =>
    have hreturn := units_pos '\r' encoding
    rw [lineStartsFrom, List.length_cons, unitCount_cons, unitCount_cons]
    omega
  | case3 base c rest hother next hend ih =>
    have hpos := units_pos c encoding
    rw [lineStartsFrom, if_pos hend, List.length_cons, unitCount_cons, Nat.add_comm]
    · exact Nat.add_le_add hpos ih
    · exact hother
  | case4 base c rest hother next hend ih =>
    rw [lineStartsFrom, if_neg hend, unitCount_cons]
    · exact Nat.le_add_left_of_le ih
    · exact hother

/-- A number that fits is a word. -/
theorem word?_of_lt {n : Nat} (hfits : n < 2 ^ 32) : word? n = some (UInt32.ofNat n) :=
  if_pos hfits

/-- A word is the word of its number. -/
theorem word?_of_toNat {word : UInt32} {n : Nat} (hword : word.toNat = n) :
    word? n = some word := by
  rw [← hword, word?_of_lt word.toNat_lt, UInt32.ofNat_toNat]

/-- The units of a position take the bytes of a beginning of its line. -/
theorem bytesOfUnits?_eq_some {units bytes : Nat} {line : List Char}
    (hbytes : bytesOfUnits? encoding units line = some bytes) :
    ∃ before rest, line = before ++ rest ∧ byteSize before = bytes ∧
      unitCount encoding before = units := by
  induction units, line using bytesOfUnits?.induct encoding generalizing bytes with
  | case1 line =>
    rw [bytesOfUnits?] at hbytes
    exact ⟨[], line, rfl, Option.some.inj hbytes, rfl⟩
  | case2 => cases hbytes
  | case3 units c rest hfits ih =>
    rw [bytesOfUnits?, if_pos hfits] at hbytes
    obtain ⟨fewer, hfewer, rfl⟩ := Option.map_eq_some_iff.mp hbytes
    obtain ⟨before, rest', rfl, rfl, hunits⟩ := ih hfewer
    refine ⟨c :: before, rest', rfl, rfl, ?_⟩
    change encoding.units c + unitCount encoding before = units + 1
    omega
  | case4 units c rest hbeyond =>
    rw [bytesOfUnits?, if_neg hbeyond] at hbytes
    cases hbytes

/-- Only offsets between two characters have a position. -/
theorem isBoundary_of_positionAt? {offset : Nat} {lines : List Nat} {position : Position}
    (hposition : positionAt? text lines offset encoding = some position) :
    isBoundary offset text = true := by
  unfold positionAt? at hposition
  split at hposition
  · assumption
  · cases hposition

/-- The position of an offset is made of the number of its line and the units up to it. -/
theorem positionAt?_of_words {offset start : Nat} {lines : List Nat} {position : Position}
    (hboundary : isBoundary offset text = true)
    (hlines : (lineStarts text).takeWhile (· ≤ offset) = lines)
    (hstart : lines.getLast? = some start) (hline : word? (lines.length - 1) = some position.line)
    (hcharacter : word? (unitCount encoding (slice start offset text)) =
      some position.character) :
    positionAt? text (lineStarts text) offset encoding = some position := by
  simp only [positionAt?, if_pos hboundary, hlines, hstart, bind, Option.bind_some, hline,
    hcharacter, pure]

/-- Every boundary of a text has a position, if the units of the text can be counted by words. -/
theorem exists_positionAt? (hsize : unitCount encoding text < 2 ^ 32) {offset : Nat}
    (hboundary : isBoundary offset text = true) :
    ∃ position, positionAt? text (lineStarts text) offset encoding = some position := by
  obtain ⟨before, rest, rfl, rfl⟩ := split_of_isBoundary hboundary
  obtain ⟨lines, line, rfl, hlast⟩ := exists_lineOf before rest
  refine ⟨⟨_, _⟩, positionAt?_of_words hboundary rfl hlast (word?_of_lt ?_) (word?_of_lt ?_)⟩
  · have htaken := (List.takeWhile_prefix (l := lineStarts (lines ++ line ++ rest))
      (· ≤ byteSize (lines ++ line))).length_le
    have hlines := length_lineStartsFrom_le encoding 0 (lines ++ line ++ rest)
    have hfirst : (lineStarts (lines ++ line ++ rest)).length =
        (lineStartsFrom 0 (lines ++ line ++ rest)).length + 1 := rfl
    omega
  · rw [byteSize_append, slice_append]
    rw [unitCount_append, unitCount_append] at hsize
    omega

/-- Of two offsets the later one has the later position. -/
theorem isBefore_of_lt {offset later : Nat} {position position' : Position} (hlt : offset < later)
    (hposition : positionAt? text (lineStarts text) offset encoding = some position)
    (hposition' : positionAt? text (lineStarts text) later encoding = some position') :
    position.IsBefore position' := by
  obtain ⟨before, rest, rfl, rfl⟩ := split_of_isBoundary (isBoundary_of_positionAt? hposition)
  obtain ⟨before', rest', hsplit, rfl⟩ :=
    split_of_isBoundary (isBoundary_of_positionAt? hposition')
  obtain ⟨middle, rfl, rfl⟩ := split_of_byteSize_le hsplit (Nat.le_of_lt hlt)
  obtain ⟨lines, line, rfl, hlast⟩ := exists_lineOf before (middle ++ rest')
  obtain ⟨lines', line', -, hlast'⟩ := exists_lineOf (lines ++ line ++ middle) rest'
  rw [← List.append_assoc] at hlast hposition hposition'
  obtain ⟨hnumber, hcharacter⟩ := positionAt?_eq hposition rfl hlast
  obtain ⟨hnumber', hcharacter'⟩ := positionAt?_eq hposition' rfl hlast'
  -- the line starts up to the first offset come first among those up to the second one
  have htaken : (lineStarts (lines ++ line ++ middle ++ rest')).takeWhile
      (· ≤ byteSize (lines ++ line)) <+: (lineStarts (lines ++ line ++ middle ++ rest')).takeWhile
        (· ≤ byteSize (lines ++ line ++ middle)) :=
    takeWhile_le_prefix (Nat.le_of_lt hlt) _
  rw [Position.IsBefore, UInt32.lt_iff_toNat_lt, UInt32.lt_iff_toNat_lt, ← UInt32.toNat_inj,
    hnumber, hnumber', hcharacter, hcharacter']
  rcases Nat.lt_or_eq_of_le htaken.length_le with hless | hsame
  · have hfirst := List.length_pos_of_mem (List.mem_of_getLast? hlast)
    exact Or.inl (by omega)
  · have hlines := htaken.eq_of_length hsame
    have hstart : byteSize lines = byteSize lines' := by
      rw [hlines, hlast'] at hlast
      exact (Option.some.inj hlast).symm
    refine Or.inr ⟨by rw [hsame], ?_⟩
    have hmiddle : middle ≠ [] := by
      rintro rfl
      rw [List.append_nil] at hlt
      exact Nat.lt_irrefl _ hlt
    have hslice : slice (byteSize lines) (byteSize (lines ++ line))
        (lines ++ line ++ middle ++ rest') = line := by
      rw [List.append_assoc _ middle, byteSize_append lines, slice_append]
    have hslice' : slice (byteSize lines) (byteSize (lines ++ line ++ middle))
        (lines ++ line ++ middle ++ rest') = line ++ middle := by
      rw [List.append_assoc lines, byteSize_append lines, slice_append]
    rw [← hstart, hslice, hslice', unitCount_append]
    exact Nat.lt_add_of_pos_right (unitCount_pos hmiddle)

/-- No line starts in a text without line ends. -/
theorem lineStartsFrom_of_all {line : List Char} (hline : ∀ c ∈ line, isLineEnd c = false)
    (base : Nat) : lineStartsFrom base line = [] := by
  induction line generalizing base with
  | nil => rfl
  | cons c line ih =>
    have hc := hline c List.mem_cons_self
    have hreturn : '\r' ∉ [c] := by
      intro hmem
      rw [← List.mem_singleton.mp hmem] at hc
      cases hc
    rw [lineStartsFrom_cons (joins_of_not_mem hreturn line), hc,
      ih fun other hother => hline other (List.mem_cons_of_mem _ hother)]
    rfl

/-- Up to an offset in a line, the lines start that start up to the start of this line. -/
theorem takeWhile_lineStarts_line {lines line rest : List Char}
    (hseam : joins lines (line ++ rest) = false) (hline : ∀ c ∈ line, isLineEnd c = false) :
    (lineStarts (lines ++ (line ++ rest))).takeWhile (· ≤ byteSize lines + byteSize line) =
      lineStarts lines := by
  refine takeWhile_lineStarts hseam (Nat.le_add_right _ _) fun start hlater => ?_
  have hplain : '\r' ∉ line := fun hmem => by cases hline '\r' hmem
  rw [lineStartsFrom_append (joins_of_not_mem hplain rest), lineStartsFrom_of_all hline,
    List.nil_append] at hlater
  exact (mem_lineStartsFrom hlater).1

/-- A position that stands for an offset counts the lines before it and the units of the beginning
of its own line. -/
theorem exists_of_offsetAt? {position : Position} {offset : Nat}
    (hoffset : offsetAt? text (lineStarts text) position encoding = some offset) :
    ∃ lines line rest, text = lines ++ (line ++ rest) ∧
      offset = byteSize lines + byteSize line ∧ joins lines (line ++ rest) = false ∧
      (∀ c ∈ line, isLineEnd c = false) ∧
      (lineStarts lines).getLast? = some (byteSize lines) ∧
      (lineStarts lines).length = position.line.toNat + 1 ∧
      unitCount encoding line = position.character.toNat := by
  have hnumber : ∃ start, (lineStarts text)[position.line.toNat]? = some start := by
    rw [← Option.isSome_iff_exists]
    by_contra hnone
    rw [Option.not_isSome_iff_eq_none] at hnone
    simp [offsetAt?, hnone] at hoffset
  obtain ⟨start, hstart⟩ := hnumber
  obtain ⟨lines, rest, rfl, rfl, hseam, hlast, hlength⟩ := exists_of_lineStart hstart
  have hread := @offsetAt?_append encoding lines [] rest (by rwa [List.append_nil]) (by simp)
    (by rwa [List.append_nil]) position (by rw [List.append_nil, hlength, Nat.add_sub_cancel])
  rw [List.append_nil, hoffset, List.nil_append, dropLineEnds_firstLine] at hread
  obtain ⟨bytes, hbytes, rfl⟩ := Option.map_eq_some_iff.mp hread.symm
  obtain ⟨line, later, hcontent, rfl, hunits⟩ := bytesOfUnits?_eq_some hbytes
  have hline : ∀ c ∈ line, isLineEnd c = false := by
    intro c hc
    have hmem : c ∈ rest.takeWhile fun c => !isLineEnd c := by
      rw [hcontent]
      exact List.mem_append_left later hc
    simpa using List.mem_takeWhile_imp hmem
  have hrest : rest = line ++ (later ++ rest.dropWhile fun c => !isLineEnd c) := by
    rw [← List.append_assoc, ← hcontent, List.takeWhile_append_dropWhile]
  rw [hrest] at hseam
  exact ⟨lines, line, _, congrArg _ hrest, rfl, hseam, hline, hlast, hlength, hunits⟩

/-- What a position stands for is told as that position. -/
theorem positionAt?_offsetAt? {position : Position} {offset : Nat}
    (hoffset : offsetAt? text (lineStarts text) position encoding = some offset) :
    isBoundary offset text = true ∧
      positionAt? text (lineStarts text) offset encoding = some position := by
  obtain ⟨lines, line, rest, rfl, rfl, hseam, hline, hlast, hlength, hunits⟩ :=
    exists_of_offsetAt? hoffset
  have hboundary :
      isBoundary (byteSize lines + byteSize line) (lines ++ (line ++ rest)) = true := by
    rw [← byteSize_append, ← List.append_assoc]
    exact isBoundary_append _ rest
  refine ⟨hboundary, positionAt?_of_words hboundary (takeWhile_lineStarts_line hseam hline) hlast
    (word?_of_toNat ?_) (word?_of_toNat ?_)⟩
  · rw [hlength, Nat.add_sub_cancel]
  · rw [← List.append_assoc, slice_append, hunits]

end Units

end Text

end LanguageClient
