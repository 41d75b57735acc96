import LanguageClient.Proofs.Document.Positions
import LanguageClient.Proofs.Text.Reading

/-!
# The table of lines

The table of a text can be found in one pass over its bytes, since no character but a carriage
return or a line feed has one of their bytes. A carriage return takes the line feed behind it along,
so the pass moves on by one byte or by two. What it finds are the places behind the line ends of the
text: between two of them is one line with its end, and behind the last one there is no line end.
-/

namespace LanguageClient.Text

/-- The offsets just after each line end, found byte by byte from an offset on. -/
def scanFrom (bytes : List UInt8) (offset : Nat) : List Nat :=
  if h : offset < bytes.length then
    if bytes[offset] = 0x0D then
      if bytes[offset + 1]? = some 0x0A then (offset + 2) :: scanFrom bytes (offset + 2)
      else (offset + 1) :: scanFrom bytes (offset + 1)
    else if bytes[offset] = 0x0A then (offset + 1) :: scanFrom bytes (offset + 1)
    else scanFrom bytes (offset + 1)
  else []
termination_by bytes.length - offset

/-- The offset at which each line starts, found in the bytes of a text. -/
def scanLines (bytes : List UInt8) : List Nat :=
  0 :: scanFrom bytes 0

section Scanning

variable {bytes : List UInt8} {offset : Nat}

theorem scanFrom_return (hbyte : bytes[offset]? = some 0x0D)
    (hnext : bytes[offset + 1]? ≠ some 0x0A) :
    scanFrom bytes offset = (offset + 1) :: scanFrom bytes (offset + 1) := by
  obtain ⟨hlt, hbyte⟩ := List.getElem?_eq_some_iff.mp hbyte
  rw [scanFrom, dif_pos hlt, if_pos hbyte, if_neg hnext]

theorem scanFrom_returnFeed (hbyte : bytes[offset]? = some 0x0D)
    (hnext : bytes[offset + 1]? = some 0x0A) :
    scanFrom bytes offset = (offset + 2) :: scanFrom bytes (offset + 2) := by
  obtain ⟨hlt, hbyte⟩ := List.getElem?_eq_some_iff.mp hbyte
  rw [scanFrom, dif_pos hlt, if_pos hbyte, if_pos hnext]

theorem scanFrom_feed (hbyte : bytes[offset]? = some 0x0A) :
    scanFrom bytes offset = (offset + 1) :: scanFrom bytes (offset + 1) := by
  obtain ⟨hlt, hbyte⟩ := List.getElem?_eq_some_iff.mp hbyte
  have hother : bytes[offset] ≠ 0x0D := by
    rw [hbyte]
    decide
  rw [scanFrom, dif_pos hlt, if_neg hother, if_pos hbyte]

/-- Bytes that belong to no line end are passed over. -/
theorem scanFrom_plain {count : Nat} (hplain : ∀ n < count, ∃ byte,
    bytes[offset + n]? = some byte ∧ byte ≠ 0x0D ∧ byte ≠ 0x0A) :
    scanFrom bytes offset = scanFrom bytes (offset + count) := by
  induction count with
  | zero => rfl
  | succ count ih =>
    obtain ⟨byte, hbyte, hreturn, hfeed⟩ := hplain count (Nat.lt_succ_self count)
    obtain ⟨hlt, rfl⟩ := List.getElem?_eq_some_iff.mp hbyte
    have hearlier := ih fun n hn => hplain n (by omega)
    rw [hearlier, scanFrom, dif_pos hlt, if_neg hreturn, if_neg hfeed, Nat.add_assoc]

theorem length_encodeChars (text : List Char) :
    (Utf8.encodeChars text).length = byteSize text := by
  induction text with
  | nil => rfl
  | cons c text ih =>
    rw [byteSize_cons, ← ih, Utf8.encodeChars, List.flatMap_cons, List.length_append,
      String.length_utf8EncodeChar]
    rfl

/-- The bytes behind a beginning of a text are those of its rest. -/
theorem getElem?_encodeChars_append (before rest : List Char) (n : Nat) :
    (Utf8.encodeChars (before ++ rest))[byteSize before + n]? =
      (Utf8.encodeChars rest)[n]? := by
  rw [Utf8.encodeChars_append, ← length_encodeChars, List.getElem?_append_right (by omega),
    Nat.add_sub_cancel_left]

/-- The first byte of a text is a line feed only if its first character is. -/
theorem head?_of_feed {rest : List Char} (hfeed : (Utf8.encodeChars rest)[0]? = some 0x0A) :
    rest.head? = some '\n' := by
  cases rest with
  | nil => cases hfeed
  | cons c rest =>
    have hpos : 0 < (String.utf8EncodeChar c).length := by
      rw [String.length_utf8EncodeChar]
      exact c.utf8Size_pos
    rw [Utf8.encodeChars, List.flatMap_cons, List.getElem?_append_left hpos] at hfeed
    have hcode := Utf8.eq_of_mem_utf8EncodeChar (by decide) (List.mem_of_getElem? hfeed)
    have hc : c = '\n' := Char.toNat_inj.mp hcode
    rw [hc, List.head?_cons]

/-- The bytes of a character that belongs to no line end are those of no line end. -/
theorem plain_of_mem_utf8EncodeChar {c : Char} (hplain : isLineEnd c = false) {byte : UInt8}
    (hbyte : byte ∈ String.utf8EncodeChar c) : byte ≠ 0x0D ∧ byte ≠ 0x0A := by
  constructor
  · rintro rfl
    have hc : c = '\r' := Char.toNat_inj.mp (Utf8.eq_of_mem_utf8EncodeChar (by decide) hbyte)
    rw [hc] at hplain
    cases hplain
  · rintro rfl
    have hc : c = '\n' := Char.toNat_inj.mp (Utf8.eq_of_mem_utf8EncodeChar (by decide) hbyte)
    rw [hc] at hplain
    cases hplain

/-- The pass over the bytes finds the line starts of the characters. -/
theorem scanFrom_encodeChars (before rest : List Char) :
    scanFrom (Utf8.encodeChars (before ++ rest)) (byteSize before) =
      lineStartsFrom (byteSize before) rest := by
  generalize hbase : byteSize before = base
  induction base, rest using lineStartsFrom.induct generalizing before with
  | case1 base =>
    rw [List.append_nil, scanFrom, dif_neg (by rw [length_encodeChars]; omega), lineStartsFrom]
  | case2 base rest ih =>
    have hbytes := getElem?_encodeChars_append before ('\r' :: '\n' :: rest)
    rw [hbase] at hbytes
    have hlater := ih (before ++ ['\r', '\n']) (by rw [byteSize_append, hbase]; rfl)
    rw [List.append_assoc] at hlater
    have hreturn : (Utf8.encodeChars (before ++ '\r' :: '\n' :: rest))[base]? = some 0x0D :=
      hbytes 0
    rw [scanFrom_returnFeed hreturn (hbytes 1), lineStartsFrom]
    exact congrArg _ hlater
  | case3 base c rest hother next hend ih =>
    have hbytes := getElem?_encodeChars_append before (c :: rest)
    rw [hbase] at hbytes
    have hlater := ih (before ++ [c]) (by rw [byteSize_append, hbase]; rfl)
    rw [List.append_assoc] at hlater
    rw [lineStartsFrom, if_pos hend]
    · obtain rfl | rfl : c = '\r' ∨ c = '\n' := by simpa using hend
      · have hnext : (Utf8.encodeChars (before ++ '\r' :: rest))[base + 1]? ≠ some 0x0A := by
          rw [hbytes]
          intro hfeed
          obtain ⟨later, rfl⟩ := List.head?_eq_some_iff.mp (head?_of_feed hfeed)
          exact hother later rfl rfl
        have hreturn : (Utf8.encodeChars (before ++ '\r' :: rest))[base]? = some 0x0D := hbytes 0
        rw [scanFrom_return hreturn hnext]
        exact congrArg _ hlater
      · have hfeed : (Utf8.encodeChars (before ++ '\n' :: rest))[base]? = some 0x0A := hbytes 0
        rw [scanFrom_feed hfeed]
        exact congrArg _ hlater
    · exact hother
  | case4 base c rest hother next hend ih =>
    have hlater := ih (before ++ [c]) (by rw [byteSize_append, hbase]; rfl)
    rw [List.append_assoc] at hlater
    rw [lineStartsFrom, if_neg hend]
    · refine Eq.trans (scanFrom_plain fun n hn => ?_) hlater
      have hlt : n < (String.utf8EncodeChar c).length := by rwa [String.length_utf8EncodeChar]
      refine ⟨(String.utf8EncodeChar c)[n], ?_, ?_⟩
      · rw [← hbase, getElem?_encodeChars_append, Utf8.encodeChars, List.flatMap_cons,
          List.getElem?_append_left hlt, List.getElem?_eq_getElem hlt]
      · exact plain_of_mem_utf8EncodeChar (Bool.not_eq_true _ ▸ hend) (List.getElem_mem hlt)
    · exact hother

/-- The table that is found in the bytes of a text is that of the text. -/
theorem scanLines_encodeChars (text : List Char) :
    scanLines (Utf8.encodeChars text) = lineStarts text := by
  rw [scanLines, lineStarts]
  exact congrArg _ (scanFrom_encodeChars [] text)

end Scanning

/-- A line end stands between two parts of a text: a carriage return with a line feed, or one of
them without the other. -/
inductive IsLineBreak : (before ending after : List Char) → Prop
  | returnFeed (before after : List Char) : IsLineBreak before ['\r', '\n'] after
  | loneReturn {before after : List Char} (hafter : after.head? ≠ some '\n') :
    IsLineBreak before ['\r'] after
  | loneFeed {before after : List Char} (hbefore : before.getLast? ≠ some '\r') :
    IsLineBreak before ['\n'] after

/-- What the table of a text says about it. -/
structure IsLineTable (text : List Char) (lines : List Nat) : Prop where
  first : lines.head? = some 0
  ascends : lines.Pairwise (· < ·)
  /-- Further lines start behind the line ends of the text and nowhere else. -/
  further : ∀ start, start ∈ lines.tail ↔ ∃ before ending after,
    text = before ++ ending ++ after ∧ IsLineBreak before ending after ∧
      start = byteSize (before ++ ending)
  within : ∀ start ∈ lines, isBoundary start text = true ∧ start ≤ byteSize text
  /-- Between the starts of two lines there is one line end, behind the content of the first. -/
  ended : ∀ n start stop, lines[n]? = some start → lines[n + 1]? = some stop →
    ∃ before content ending after, text = before ++ content ++ ending ++ after ∧
      start = byteSize before ∧ stop = byteSize (before ++ content ++ ending) ∧
      IsLineBreak (before ++ content) ending after ∧ (∀ c ∈ content, isLineEnd c = false) ∧
      slice start stop text = content ++ ending
  /-- Behind the start of the last line there is none. -/
  last : ∀ start, lines.getLast? = some start →
    ∀ c ∈ slice start (byteSize text) text, isLineEnd c = false

section Breaks

variable {before ending after text : List Char}

/-- A line end is complete. -/
theorem IsLineBreak.joins_eq (hbreak : IsLineBreak before ending after) :
    joins (before ++ ending) after = false := by
  cases hbreak with
  | returnFeed => rw [joins_append (by simp)]; rfl
  | loneReturn hafter => simp [joins, hafter]
  | loneFeed => rw [joins_append (by simp)]; rfl

theorem IsLineBreak.exists_concat (hbreak : IsLineBreak before ending after) :
    ∃ shorter c, before ++ ending = shorter ++ [c] ∧ isLineEnd c = true := by
  cases hbreak with
  | returnFeed => exact ⟨before ++ ['\r'], '\n', by simp, rfl⟩
  | loneReturn => exact ⟨before, '\r', rfl, rfl⟩
  | loneFeed => exact ⟨before, '\n', rfl, rfl⟩

/-- A complete line end, looked at from behind. -/
theorem exists_isLineBreak {shorter : List Char} {c : Char} (hend : isLineEnd c = true)
    (hseam : joins (shorter ++ [c]) after = false) : ∃ before ending,
      shorter ++ [c] = before ++ ending ∧ IsLineBreak before ending after := by
  obtain rfl | rfl : c = '\r' ∨ c = '\n' := by simpa [isLineEnd] using hend
  · refine ⟨shorter, ['\r'], rfl, .loneReturn ?_⟩
    simpa [joins] using hseam
  · by_cases hreturn : shorter.getLast? = some '\r'
    · obtain ⟨before, rfl⟩ := List.getLast?_eq_some_iff.mp hreturn
      exact ⟨before, ['\r', '\n'], by simp, .returnFeed before after⟩
    · exact ⟨shorter, ['\n'], rfl, .loneFeed hreturn⟩

/-- Only a line end lets a line start right behind it. -/
theorem isLineEnd_of_getLast?_lineStarts {shorter : List Char} {c : Char}
    (hlast : (lineStarts (shorter ++ [c])).getLast? = some (byteSize (shorter ++ [c]))) :
    isLineEnd c = true := by
  by_contra hplain
  rw [Bool.not_eq_true] at hplain
  obtain ⟨lines, line, hsplit, -, hopen⟩ := exists_openLine shorter
  have hseam : joins shorter [c] = false := by
    have hfeed : c ≠ '\n' := by
      rintro rfl
      cases hplain
    simp [joins, hfeed]
  have hnone : lineStartsFrom (0 + byteSize shorter) [c] = [] :=
    lineStartsFrom_of_all (by simpa using hplain) _
  have hsame : lineStarts (shorter ++ [c]) = lineStarts shorter := by
    rw [lineStarts, lineStartsFrom_append hseam, hnone, List.append_nil, lineStarts]
  rw [hsame, hopen, hsplit, byteSize_append, byteSize_append] at hlast
  have hpos := c.utf8Size_pos
  have hsize : byteSize [c] = c.utf8Size := rfl
  have hequal := Option.some.inj hlast
  omega

/-- Lines start behind the line ends of a text and nowhere else. -/
theorem mem_lineStartsFrom_iff {start : Nat} : start ∈ lineStartsFrom 0 text ↔
    ∃ before ending after, text = before ++ ending ++ after ∧ IsLineBreak before ending after ∧
      start = byteSize (before ++ ending) := by
  constructor
  · intro hstart
    have hpos := (mem_lineStartsFrom hstart).1
    obtain ⟨n, hn⟩ := List.getElem?_of_mem (List.mem_cons_of_mem 0 hstart)
    obtain ⟨lines, after, rfl, rfl, hseam, hlast, -⟩ := exists_of_lineStart hn
    rcases List.eq_nil_or_concat' lines with rfl | ⟨shorter, c, rfl⟩
    · cases hpos
    · obtain ⟨before, ending, hsplit, hbreak⟩ :=
        exists_isLineBreak (isLineEnd_of_getLast?_lineStarts hlast) hseam
      exact ⟨before, ending, after, by rw [hsplit], hbreak, by rw [hsplit]⟩
  · rintro ⟨before, ending, after, rfl, hbreak, rfl⟩
    obtain ⟨shorter, c, hconcat, hend⟩ := hbreak.exists_concat
    have hlast := getLast?_lineStarts_concat hend shorter
    rw [← hconcat] at hlast
    rw [lineStartsFrom_append hbreak.joins_eq]
    refine List.mem_append_left _ ?_
    rcases List.mem_cons.mp (List.mem_of_getLast? hlast) with hzero | hlater
    · rw [hconcat, byteSize_append] at hzero
      have hpos := c.utf8Size_pos
      have hsize : byteSize [c] = c.utf8Size := rfl
      omega
    · exact hlater

/-- A line end stays one when more stands before it. -/
theorem IsLineBreak.extend {content : List Char} (hbreak : IsLineBreak content ending after)
    (hseam : joins before (content ++ ending ++ after) = false) :
    IsLineBreak (before ++ content) ending after := by
  cases hbreak with
  | returnFeed => exact .returnFeed _ _
  | loneReturn hafter => exact .loneReturn hafter
  | loneFeed hbefore =>
    refine .loneFeed ?_
    rcases eq_or_ne content [] with rfl | hcontent
    · simpa [joins] using hseam
    · rwa [List.getLast?_append_of_ne_nil _ hcontent]

/-- The first line behind a line end starts there. -/
theorem lineStartsFrom_break (hbreak : IsLineBreak before ending after) (base : Nat) :
    lineStartsFrom base (ending ++ after) =
      (base + byteSize ending) :: lineStartsFrom (base + byteSize ending) after := by
  cases hbreak with
  | returnFeed => rw [List.cons_append, List.cons_append, List.nil_append, lineStartsFrom]; rfl
  | loneReturn hafter =>
    have hseam : joins ['\r'] after = false := by simp [joins, hafter]
    rw [List.singleton_append, lineStartsFrom_cons hseam]
    rfl
  | loneFeed hbefore =>
    have hseam : joins ['\n'] after = false := by simp [joins]
    rw [List.singleton_append, lineStartsFrom_cons hseam]
    rfl

/-- A text is one line without an end, or it begins with a line and its end. -/
theorem exists_firstBreak (text : List Char) :
    (∀ c ∈ text, isLineEnd c = false) ∨ ∃ content ending after, text = content ++ ending ++ after ∧
      (∀ c ∈ content, isLineEnd c = false) ∧ IsLineBreak content ending after := by
  induction text with
  | nil => exact .inl (by simp)
  | cons c rest ih =>
    cases hend : isLineEnd c with
    | true =>
      right
      obtain rfl | rfl : c = '\r' ∨ c = '\n' := by simpa [isLineEnd] using hend
      · by_cases hfeed : rest.head? = some '\n'
        · obtain ⟨after, rfl⟩ := List.head?_eq_some_iff.mp hfeed
          exact ⟨[], ['\r', '\n'], after, rfl, by simp, .returnFeed [] after⟩
        · exact ⟨[], ['\r'], rest, rfl, by simp, .loneReturn hfeed⟩
      · exact ⟨[], ['\n'], rest, rfl, by simp, .loneFeed (by simp)⟩
    | false =>
      rcases ih with hplain | ⟨content, ending, after, rfl, hcontent, hbreak⟩
      · exact .inl (List.forall_mem_cons.mpr ⟨hend, hplain⟩)
      · have hreturn : '\r' ∉ [c] := fun hmem => by
          rw [← List.mem_singleton.mp hmem] at hend
          cases hend
        exact .inr ⟨c :: content, ending, after, rfl, List.forall_mem_cons.mpr ⟨hend, hcontent⟩,
          hbreak.extend (joins_of_not_mem hreturn _)⟩

/-- The table of a text says where its lines begin and end. -/
theorem isLineTable_lineStarts (text : List Char) : IsLineTable text (lineStarts text) where
  first := rfl
  ascends := ascends_lineStarts text
  further start := mem_lineStartsFrom_iff
  within start hstart := by
    obtain ⟨n, hn⟩ := List.getElem?_of_mem hstart
    obtain ⟨lines, rest, rfl, rfl, -⟩ := exists_of_lineStart hn
    exact ⟨isBoundary_append lines rest, by rw [byteSize_append]; omega⟩
  ended n start stop hstart hstop := by
    obtain ⟨before, rest, rfl, rfl, hseam, -, hcount⟩ := exists_of_lineStart hstart
    rw [lineStarts, lineStartsFrom_append hseam, ← List.cons_append, ← lineStarts,
      List.getElem?_append_right (by omega), hcount, Nat.sub_self, Nat.zero_add] at hstop
    rcases exists_firstBreak rest with hplain | ⟨content, ending, after, rfl, hcontent, hbreak⟩
    · rw [lineStartsFrom_of_all hplain] at hstop
      cases hstop
    · have hreturn : '\r' ∉ content := fun hmem => by cases hcontent '\r' hmem
      rw [List.append_assoc, lineStartsFrom_append (joins_of_not_mem hreturn _),
        lineStartsFrom_of_all hcontent, List.nil_append, lineStartsFrom_break hbreak] at hstop
      have hsize : byteSize before + byteSize (content ++ ending) = stop := by
        rw [byteSize_append, ← Nat.add_assoc]
        exact Option.some.inj hstop
      refine ⟨before, content, ending, after, by simp only [List.append_assoc], rfl, ?_,
        hbreak.extend hseam, hcontent, ?_⟩
      · rw [List.append_assoc, byteSize_append, hsize]
      · rw [← hsize, ← List.append_assoc, slice_append]
  last start hstart := by
    obtain ⟨lines, line, rfl, hline, hlast⟩ := exists_openLine text
    obtain rfl := Option.some.inj (hlast.symm.trans hstart)
    have hslice := slice_append lines line []
    rw [List.append_nil, ← byteSize_append] at hslice
    rwa [hslice]

example : lineStarts ['a', '\r', '\n', 'b', '\n', 'c', '\r', 'd'] = [0, 3, 5, 7] := by decide

end Breaks

/-- Every part of a text that is looked up with its table lies within it. -/
structure SlicesWithin (text : List Char) (lines : List Nat) : Prop where
  /-- A line with its end, for a position. -/
  line : ∀ n start, lines[n]? = some start →
    start ≤ lines[n + 1]?.getD (byteSize text) ∧
      lines[n + 1]?.getD (byteSize text) ≤ byteSize text ∧ isBoundary start text = true ∧
      isBoundary (lines[n + 1]?.getD (byteSize text)) text = true
  /-- The beginning of a line, for an offset. -/
  offset : ∀ offset, isBoundary offset text = true → ∃ start,
    (lines.takeWhile (· ≤ offset)).getLast? = some start ∧
      lines[(lines.takeWhile (· ≤ offset)).length - 1]? = some start ∧
      start ≤ offset ∧ offset ≤ byteSize text ∧ isBoundary start text = true

/-- What the table says keeps them within the text. -/
theorem IsLineTable.slicesWithin {text : List Char} {lines : List Nat}
    (htable : IsLineTable text lines) : SlicesWithin text lines where
  line n start hstart := by
    have hwithin := htable.within start (List.mem_of_getElem? hstart)
    cases hstop : lines[n + 1]? with
    | none =>
      have hend := isBoundary_append text []
      rw [List.append_nil] at hend
      exact ⟨hwithin.2, Nat.le_refl _, hwithin.1, hend⟩
    | some stop =>
      have hwithin' := htable.within stop (List.mem_of_getElem? hstop)
      obtain ⟨hlt, hn⟩ := List.getElem?_eq_some_iff.mp hstart
      obtain ⟨hlt', hn'⟩ := List.getElem?_eq_some_iff.mp hstop
      have hascends := List.pairwise_iff_getElem.mp htable.ascends n (n + 1) hlt hlt' (by omega)
      rw [hn, hn'] at hascends
      exact ⟨Nat.le_of_lt hascends, hwithin'.2, hwithin.1, hwithin'.1⟩
  offset offset hoffset := by
    have hprefix := List.takeWhile_prefix (l := lines) fun start => decide (start ≤ offset)
    have hbounds : ∀ start ∈ lines.takeWhile (· ≤ offset), start ≤ offset := fun start hstart => by
      simpa using List.mem_takeWhile_imp hstart
    have hsome : lines.takeWhile (· ≤ offset) ≠ [] := by
      obtain ⟨rest, rfl⟩ := List.head?_eq_some_iff.mp htable.first
      simp
    generalize lines.takeWhile (· ≤ offset) = earlier at hprefix hbounds hsome ⊢
    obtain ⟨later, hlines⟩ := hprefix
    have hlast := List.getLast?_eq_some_getLast hsome
    have hmem := List.getLast_mem hsome
    have hwithin := htable.within _ (hlines ▸ List.mem_append_left later hmem)
    refine ⟨_, hlast, ?_, hbounds _ hmem, ?_, hwithin.1⟩
    · have hpos := List.length_pos_of_ne_nil hsome
      rw [← hlines, List.getElem?_append_left (by omega), ← List.getLast?_eq_getElem?, hlast]
    · obtain ⟨before, after, rfl, rfl⟩ := split_of_isBoundary hoffset
      rw [byteSize_append]
      omega

/-- A table is that of a text: the pass over its bytes finds it, it says where the lines of the text
begin and end, and what is looked up with it lies within the text. -/
structure Tabulates (text : String) (lines : List Nat) : Prop where
  scanned : scanLines (Utf8.encode text) = lines
  table : IsLineTable text.toList lines
  slices : SlicesWithin text.toList lines

theorem tabulates_lineStarts (text : String) : Tabulates text (lineStarts text.toList) where
  scanned := scanLines_encodeChars text.toList
  table := isLineTable_lineStarts text.toList
  slices := (isLineTable_lineStarts text.toList).slicesWithin

end LanguageClient.Text
