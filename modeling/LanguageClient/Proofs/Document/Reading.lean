import LanguageClient.Document.Lines
import Mathlib.Data.List.Basic
import Mathlib.Data.List.Induction

/-!
# Reading positions

A server reads a position by going over the lines of its text and then over the characters of a
line. The position that is told for an offset depends on the text before it only, so it is read as
the same place in every text that begins in the same way. The exception are carriage returns: the
line feed that follows one belongs to the same line end.
-/

namespace LanguageClient

namespace Text

/-- The first line with its end, and what follows; the last line has no end. -/
def nextLine? : List Char → Option (List Char × List Char)
  | [] => none
  | '\r' :: '\n' :: rest => some (['\r', '\n'], rest)
  | c :: rest =>
    if isLineEnd c then some ([c], rest)
    else (nextLine? rest).map fun (line, rest) => (c :: line, rest)

/-- So many lines, and what follows. -/
def seekLine? : (lines : Nat) → List Char → Option (List Char × List Char)
  | 0, text => some ([], text)
  | lines + 1, text => do
    let (before, rest) ← seekLine? lines text
    let (line, rest) ← nextLine? rest
    return (before ++ line, rest)

/-- So many units of a line, and what follows. -/
def seekUnits? (encoding : PositionEncoding) :
    (units : Nat) → List Char → Option (List Char × List Char)
  | 0, text => some ([], text)
  | _ + 1, [] => none
  | units + 1, c :: rest =>
    if isLineEnd c || units + 1 < encoding.units c then none
    else (seekUnits? encoding (units + 1 - encoding.units c) rest).map fun (before, rest) =>
      (c :: before, rest)

/-- The text before a position and the text after it. -/
def seek? (encoding : PositionEncoding) (position : Position) (text : List Char) :
    Option (List Char × List Char) := do
  let (lines, rest) ← seekLine? position.line.toNat text
  let (before, after) ← seekUnits? encoding position.character.toNat rest
  return (lines ++ before, after)

section Bytes

@[simp] theorem byteSize_nil : byteSize [] = 0 := rfl

@[simp] theorem byteSize_cons (c : Char) (rest : List Char) :
    byteSize (c :: rest) = c.utf8Size + byteSize rest :=
  rfl

@[simp] theorem byteSize_append (before rest : List Char) :
    byteSize (before ++ rest) = byteSize before + byteSize rest := by
  induction before with
  | nil => rw [List.nil_append, byteSize_nil, Nat.zero_add]
  | cons c before ih => rw [List.cons_append, byteSize_cons, byteSize_cons, ih, Nat.add_assoc]

/-- An offset that begins with a character is not zero. -/
theorem exists_succ_eq (c : Char) (n : Nat) : ∃ offset, c.utf8Size + n = offset + 1 := by
  have hpos := c.utf8Size_pos
  exact ⟨c.utf8Size + n - 1, by omega⟩

theorem takeBytes_append (before rest : List Char) :
    takeBytes (byteSize before) (before ++ rest) = before := by
  induction before with
  | nil => cases rest <;> rfl
  | cons c before ih =>
    obtain ⟨offset, hoffset⟩ := exists_succ_eq c (byteSize before)
    have hrest : offset + 1 - c.utf8Size = byteSize before := by omega
    rw [byteSize_cons, hoffset, List.cons_append, takeBytes, hrest, ih]

theorem dropBytes_append (before rest : List Char) :
    dropBytes (byteSize before) (before ++ rest) = rest := by
  induction before with
  | nil => cases rest <;> rfl
  | cons c before ih =>
    obtain ⟨offset, hoffset⟩ := exists_succ_eq c (byteSize before)
    have hrest : offset + 1 - c.utf8Size = byteSize before := by omega
    rw [byteSize_cons, hoffset, List.cons_append, dropBytes, hrest, ih]

/-- A text is divided at each of its boundaries. -/
theorem split_of_isBoundary {offset : Nat} {text : List Char}
    (hboundary : isBoundary offset text = true) :
    ∃ before rest, text = before ++ rest ∧ byteSize before = offset := by
  induction offset, text using isBoundary.induct with
  | case1 text => exact ⟨[], text, rfl, rfl⟩
  | case2 offset => cases hboundary
  | case3 offset c rest ih =>
    rw [isBoundary, Bool.and_eq_true, decide_eq_true_eq] at hboundary
    obtain ⟨before, after, rfl, hsize⟩ := ih hboundary.2
    refine ⟨c :: before, after, rfl, ?_⟩
    rw [byteSize_cons, hsize]
    omega

theorem eq_nil_of_byteSize {text : List Char} (hsize : byteSize text = 0) : text = [] := by
  cases text with
  | nil => rfl
  | cons c rest =>
    have hpos := c.utf8Size_pos
    rw [byteSize_cons] at hsize
    omega

/-- Of two beginnings of a text the one that takes more bytes goes on where the other one stops. -/
theorem split_of_byteSize_le {before rest before' rest' : List Char}
    (heq : before ++ rest = before' ++ rest') (hle : byteSize before ≤ byteSize before') :
    ∃ middle, before' = before ++ middle ∧ rest = middle ++ rest' := by
  rcases List.append_eq_append_iff.mp heq with ⟨middle, hlonger, hrest⟩ | ⟨middle, hshorter, hrest⟩
  · exact ⟨middle, hlonger, hrest⟩
  · have hsize : byteSize before = byteSize before' + byteSize middle := by
      rw [hshorter, byteSize_append]
    have hnone : byteSize middle = 0 := by omega
    obtain rfl := eq_nil_of_byteSize hnone
    refine ⟨[], ?_, ?_⟩
    · rw [hshorter, List.append_nil, List.append_nil]
    · rw [hrest, List.nil_append, List.nil_append]

/-- What stands between two boundaries. -/
theorem slice_append (before middle rest : List Char) :
    slice (byteSize before) (byteSize before + byteSize middle) (before ++ middle ++ rest) =
      middle := by
  rw [slice, List.append_assoc, dropBytes_append, Nat.add_sub_cancel_left, takeBytes_append]

theorem mem_of_mem_takeBytes {c : Char} {offset : Nat} {text : List Char}
    (hmem : c ∈ takeBytes offset text) : c ∈ text := by
  induction offset, text using takeBytes.induct with
  | case1 | case2 => simp [takeBytes] at hmem
  | case3 offset first rest ih =>
    rw [takeBytes] at hmem
    rcases List.mem_cons.mp hmem with rfl | hlater
    · exact List.mem_cons_self
    · exact List.mem_cons_of_mem _ (ih hlater)

theorem mem_of_mem_dropBytes {c : Char} {offset : Nat} {text : List Char}
    (hmem : c ∈ dropBytes offset text) : c ∈ text := by
  induction offset, text using dropBytes.induct with
  | case1 text => simpa [dropBytes] using hmem
  | case2 => simp [dropBytes] at hmem
  | case3 offset first rest ih =>
    rw [dropBytes] at hmem
    exact List.mem_cons_of_mem _ (ih hmem)

end Bytes

section Lines

/-- Whether two parts of a text share a line end: a carriage return comes last in the first part,
and a line feed first in the second one. -/
def joins (before rest : List Char) : Bool :=
  before.getLast? == some '\r' && rest.head? == some '\n'

theorem joins_of_not_mem {before : List Char} (hbefore : '\r' ∉ before) (rest : List Char) :
    joins before rest = false := by
  have hlast : before.getLast? ≠ some '\r' := fun hlast => hbefore (List.mem_of_getLast? hlast)
  simp [joins, hlast]

/-- What stands further back does not matter for a shared line end. -/
theorem joins_append {middle : List Char} (hmiddle : middle ≠ []) (before rest : List Char) :
    joins (before ++ middle) rest = joins middle rest := by
  rw [joins, joins, List.getLast?_append_of_ne_nil _ hmiddle]

/-- Of the parts of a text that share no line end the first one can be made shorter in front. -/
theorem joins_of_cons {c : Char} {before rest : List Char}
    (hseam : joins (c :: before) rest = false) : joins before rest = false := by
  by_cases hbefore : before = []
  · rw [hbefore]
    rfl
  · rwa [← List.singleton_append, joins_append hbefore] at hseam

/-- A character that shares no line end with what follows ends a line by itself or not at all. -/
theorem lineStartsFrom_cons {c : Char} {rest : List Char} (hseam : joins [c] rest = false)
    (base : Nat) : lineStartsFrom base (c :: rest) =
      if isLineEnd c then (base + c.utf8Size) :: lineStartsFrom (base + c.utf8Size) rest
      else lineStartsFrom (base + c.utf8Size) rest := by
  rw [lineStartsFrom]
  · rfl
  · rintro rest' rfl rfl
    cases hseam

/-- The lines of a text are the lines of both parts, unless they share a line end. -/
theorem lineStartsFrom_append {before rest : List Char} (hseam : joins before rest = false)
    (base : Nat) : lineStartsFrom base (before ++ rest) =
      lineStartsFrom base before ++ lineStartsFrom (base + byteSize before) rest := by
  induction base, before using lineStartsFrom.induct with
  | case1 base => simp [lineStartsFrom]
  | case2 base before ih =>
    have hsize : byteSize ('\r' :: '\n' :: before) = 2 + byteSize before := by
      rw [byteSize_cons, byteSize_cons, ← Nat.add_assoc]
      rfl
    rw [List.cons_append, List.cons_append, lineStartsFrom, lineStartsFrom,
      ih (joins_of_cons (joins_of_cons hseam)), hsize, Nat.add_assoc, List.cons_append]
  | case3 base c before hother next hend ih | case4 base c before hother next hend ih =>
    have hfirst : joins [c] before = false := by
      by_contra hjoins
      obtain ⟨hreturn, hfeed⟩ : c = '\r' ∧ before.head? = some '\n' := by simpa [joins] using hjoins
      obtain ⟨later, hbefore⟩ := List.head?_eq_some_iff.mp hfeed
      exact hother later hreturn hbefore
    have hwhole : joins [c] (before ++ rest) = false := by
      cases before with
      | nil => exact hseam
      | cons => exact hfirst
    rw [List.cons_append, lineStartsFrom_cons hwhole, lineStartsFrom_cons hfirst,
      ih (joins_of_cons hseam), byteSize_cons, Nat.add_assoc]
    split <;> rfl

/-- Lines start within the text and not at its beginning. -/
theorem mem_lineStartsFrom {base start : Nat} {text : List Char}
    (hstart : start ∈ lineStartsFrom base text) : base < start ∧ start ≤ base + byteSize text := by
  induction base, text using lineStartsFrom.induct with
  | case1 base => cases hstart
  | case2 base rest ih =>
    have hsize : byteSize ('\r' :: '\n' :: rest) = 1 + (1 + byteSize rest) := by
      rw [byteSize_cons, byteSize_cons]
      rfl
    rw [lineStartsFrom] at hstart
    rcases List.mem_cons.mp hstart with rfl | hlater
    · omega
    · have hbounds := ih hlater
      omega
  | case3 base c rest hother next hend ih =>
    have hpos := c.utf8Size_pos
    rw [lineStartsFrom, if_pos hend] at hstart
    · rw [byteSize_cons]
      rcases List.mem_cons.mp hstart with rfl | hlater
      · omega
      · have hbounds := ih hlater
        omega
    · exact hother
  | case4 base c rest hother next hend ih =>
    have hpos := c.utf8Size_pos
    rw [lineStartsFrom, if_neg hend] at hstart
    · have hbounds := ih hstart
      rw [byteSize_cons]
      omega
    · exact hother

/-- The lines that start up to an offset are those of the text before it, as long as no other one
starts between the two. -/
theorem takeWhile_lineStarts {before rest : List Char} (hseam : joins before rest = false)
    {offset : Nat} (hoffset : byteSize before ≤ offset)
    (hnext : ∀ start ∈ lineStartsFrom (byteSize before) rest, offset < start) :
    (lineStarts (before ++ rest)).takeWhile (· ≤ offset) = lineStarts before := by
  have hwithin : ∀ start ∈ lineStarts before, start ≤ offset := by
    intro start hstart
    rcases List.mem_cons.mp hstart with rfl | hlater
    · exact Nat.zero_le _
    · have hbounds := mem_lineStartsFrom hlater
      omega
  have hbeyond : (lineStartsFrom (byteSize before) rest).takeWhile (· ≤ offset) = [] := by
    cases hrest : lineStartsFrom (byteSize before) rest with
    | nil => rfl
    | cons start later => simp [hnext start (hrest ▸ List.mem_cons_self)]
  have hlines : lineStarts (before ++ rest) =
      lineStarts before ++ lineStartsFrom (byteSize before) rest := by
    rw [lineStarts, lineStartsFrom_append hseam, Nat.zero_add]
    rfl
  rw [hlines, List.takeWhile_append_of_pos (by simpa using hwithin), hbeyond, List.append_nil]

/-- The lines that start up to the end of a text that goes on are its own, unless the end lies
within a line end. -/
theorem takeWhile_lineStarts_append {before rest : List Char} (hseam : joins before rest = false) :
    (lineStarts (before ++ rest)).takeWhile (· ≤ byteSize before) = lineStarts before :=
  takeWhile_lineStarts hseam (Nat.le_refl _) fun _ hstart => (mem_lineStartsFrom hstart).1

/-- A line ends in its first line feed. -/
theorem nextLine?_append {line : List Char} (hline : ∀ c ∈ line, isLineEnd c = false)
    (rest : List Char) : nextLine? (line ++ '\n' :: rest) = some (line ++ ['\n'], rest) := by
  induction line with
  | nil => rfl
  | cons c line ih =>
    have hc := hline c List.mem_cons_self
    have hreturn : c ≠ '\r' := by
      rintro rfl
      cases hc
    rw [List.cons_append, nextLine?, if_neg (by rw [hc]; exact Bool.false_ne_true),
      ih fun other hother => hline other (List.mem_cons_of_mem _ hother)]
    · rfl
    · rintro rest' rfl
      exact absurd rfl hreturn

/-- The text before an offset ends in a line that starts at the last line start, and going over as
many lines as there are before leads to it. -/
theorem exists_lastLine {before : List Char} (hbefore : '\r' ∉ before) :
    ∃ lines line, before = lines ++ line ∧ (∀ c ∈ line, isLineEnd c = false) ∧
      (lineStarts before).getLast? = some (byteSize lines) ∧
      ∀ rest, seekLine? ((lineStarts before).length - 1) (lines ++ rest) = some (lines, rest) := by
  induction before using List.reverseRecOn with
  | nil => exact ⟨[], [], rfl, by simp, rfl, fun rest => rfl⟩
  | append_singleton before c ih =>
    rw [List.mem_append, List.mem_singleton, not_or] at hbefore
    obtain ⟨hbefore, hc⟩ := hbefore
    obtain ⟨lines, line, rfl, hline, hlast, hseek⟩ := ih hbefore
    have hstarts : lineStarts (lines ++ line ++ [c]) = lineStarts (lines ++ line) ++
        if c = '\n' then [byteSize (lines ++ line) + c.utf8Size] else [] := by
      have hlone : joins [c] [] = false := by simp [joins]
      rw [lineStarts, lineStartsFrom_append (joins_of_not_mem hbefore _), Nat.zero_add,
        lineStartsFrom_cons hlone]
      simp [lineStarts, lineStartsFrom, isLineEnd, Ne.symm hc]
    rw [hstarts]
    by_cases hend : c = '\n'
    · subst hend
      refine ⟨lines ++ line ++ ['\n'], [], by rw [List.append_nil], by simp, ?_, fun rest => ?_⟩
      · rw [if_pos rfl, List.getLast?_concat, byteSize_append (lines ++ line)]
        rfl
      · have hlength : (lineStarts (lines ++ line) ++
            if '\n' = '\n' then [byteSize (lines ++ line) + '\n'.utf8Size] else []).length - 1 =
            (lineStarts (lines ++ line)).length - 1 + 1 := by
          simp [lineStarts]
        rw [hlength, seekLine?, List.append_assoc, List.append_assoc, hseek]
        simp [nextLine?_append hline rest]
    · refine ⟨lines, line ++ [c], by rw [List.append_assoc], ?_, ?_, ?_⟩
      · intro other hother
        rcases List.mem_append.mp hother with hold | hnew
        · exact hline other hold
        · obtain rfl := List.mem_singleton.mp hnew
          simp [isLineEnd, Ne.symm hc, hend]
      · rw [if_neg hend, List.append_nil, hlast]
      · rwa [if_neg hend, List.append_nil]

end Lines

section Units

variable {encoding : PositionEncoding}

theorem unitCount_cons (encoding : PositionEncoding) (c : Char) (rest : List Char) :
    unitCount encoding (c :: rest) = encoding.units c + unitCount encoding rest :=
  rfl

/-- Every character takes a unit. -/
theorem units_pos (c : Char) (encoding : PositionEncoding) : 0 < encoding.units c := by
  cases encoding with
  | utf8 => exact c.utf8Size_pos
  | utf32 => exact Nat.one_pos
  | utf16 | custom =>
    simp only [PositionEncoding.units]
    split <;> omega

/-- Going over the units of a line leads to what follows it. -/
theorem seekUnits?_append {line : List Char} (hline : ∀ c ∈ line, isLineEnd c = false)
    (rest : List Char) :
    seekUnits? encoding (unitCount encoding line) (line ++ rest) = some (line, rest) := by
  induction line with
  | nil => cases rest <;> rfl
  | cons c line ih =>
    have hpos := units_pos c encoding
    have hc := hline c List.mem_cons_self
    obtain ⟨units, hunits⟩ : ∃ units, encoding.units c + unitCount encoding line = units + 1 :=
      ⟨encoding.units c + unitCount encoding line - 1, by omega⟩
    have hrest : units + 1 - encoding.units c = unitCount encoding line := by omega
    have hfits : ¬ units + 1 < encoding.units c := by omega
    rw [unitCount_cons, hunits, List.cons_append, seekUnits?, hrest, hc, Bool.false_or, if_neg,
      ih fun other hother => hline other (List.mem_cons_of_mem _ hother)]
    · rfl
    · simpa using hfits

/-- A word that a number fits into is that number. -/
theorem word?_toNat {n : Nat} {word : UInt32} (hword : word? n = some word) : word.toNat = n := by
  unfold word? at hword
  split at hword
  · rename_i hfits
    obtain rfl := Option.some.inj hword
    exact UInt32.toNat_ofNat_of_lt' hfits
  · cases hword

/-- The position of an offset is read as the same place in every text that begins with the text
before the offset. -/
theorem seek?_positionAt? {text : List Char} (htext : '\r' ∉ text) {offset : Nat}
    {position : Position}
    (hposition : positionAt? text (lineStarts text) offset encoding = some position) :
    ∃ before after, text = before ++ after ∧ byteSize before = offset ∧
      ∀ rest, seek? encoding position (before ++ rest) = some (before, rest) := by
  unfold positionAt? at hposition
  split at hposition
  · rename_i hboundary
    obtain ⟨before, after, rfl, rfl⟩ := split_of_isBoundary hboundary
    refine ⟨before, after, rfl, rfl, fun rest => ?_⟩
    have hbefore : '\r' ∉ before := fun hmem => htext (List.mem_append_left _ hmem)
    obtain ⟨lines, line, rfl, hline, hlast, hseek⟩ := exists_lastLine hbefore
    simp only [takeWhile_lineStarts_append (joins_of_not_mem hbefore _), hlast, bind, pure]
      at hposition
    rw [byteSize_append, Option.bind_some, slice_append] at hposition
    obtain ⟨first, hfirst, hposition⟩ := Option.bind_eq_some_iff.mp hposition
    obtain ⟨second, hsecond, hposition⟩ := Option.bind_eq_some_iff.mp hposition
    obtain rfl := Option.some.inj hposition
    simp only [seek?, word?_toNat hfirst, word?_toNat hsecond, List.append_assoc, hseek,
      seekUnits?_append hline, bind, Option.bind_some, pure]
  · cases hposition

end Units

end Text

end LanguageClient
