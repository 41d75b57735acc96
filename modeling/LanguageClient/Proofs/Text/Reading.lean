import LanguageClient.Text.Blank
import LanguageClient.Text.Numeral
import LanguageClient.Text.Utf8

/-!
# Texts are read as they were written

The bytes of a text encode that text and no other, and a line feed among them stands for a line
feed. The decimal digits of a number are read as that number. Blanks at the ends of a text are
dropped, and nothing else. The texts that are read as a number are those that spell it: its digits,
behind any zeros and at most one plus sign.
-/

namespace LanguageClient

namespace Utf8

theorem encodeChars_append (before after : List Char) :
    encodeChars (before ++ after) = encodeChars before ++ encodeChars after :=
  List.flatMap_append

/-- The bytes of a text are read as that text. -/
theorem decode?_encodeChars (chars : List Char) :
    decode? (encodeChars chars) = some (String.ofList chars) := by
  have hbytes : (⟨(encodeChars chars).toArray⟩ : ByteArray) = chars.utf8Encode := by
    apply ByteArray.ext
    rw [List.utf8Encode, List.data_toByteArray, encodeChars]
  have hvalid : ByteArray.IsValidUTF8 ⟨(encodeChars chars).toArray⟩ := ⟨chars, hbytes⟩
  unfold decode? String.fromUTF8?
  rw [dif_pos hvalid]
  congr 1
  apply String.toByteArray_inj.mp
  rw [String.toByteArray_ofList]
  exact hbytes

theorem decode?_encode (text : String) : decode? (encode text) = some text := by
  rw [encode, decode?_encodeChars, String.ofList_toList]

/-- The character whose bytes stand at the front is read there. -/
theorem headChar?_append (c : Char) (rest : List UInt8) :
    headChar? (String.utf8EncodeChar c ++ rest) = some c := by
  have hlength : (String.utf8EncodeChar c).length ≤ 4 := by
    rw [String.length_utf8EncodeChar]
    exact c.utf8Size_le_four
  have hbytes : (⟨((String.utf8EncodeChar c ++ rest).take 4).toArray⟩ : ByteArray) =
      (String.utf8EncodeChar c).toByteArray ++
        (rest.take (4 - (String.utf8EncodeChar c).length)).toByteArray := by
    apply ByteArray.ext
    rw [List.take_append, List.take_of_length_le hlength]
    simp
  rw [headChar?, hbytes]
  exact ByteArray.utf8DecodeChar?_utf8EncodeChar_append

/-- The bytes of a text are read as that text, also where malformed ones are replaced. -/
theorem decodeLossyChars_encodeChars (chars : List Char) :
    decodeLossyChars (encodeChars chars) = chars := by
  induction chars with
  | nil => rw [encodeChars, List.flatMap_nil, decodeLossyChars]
  | cons c rest ih =>
    have hsplit : encodeChars (c :: rest) = String.utf8EncodeChar c ++ encodeChars rest :=
      List.flatMap_cons
    have hhead := headChar?_append c (encodeChars rest)
    have hlength := String.length_utf8EncodeChar c
    rw [hsplit]
    cases hbytes : String.utf8EncodeChar c with
    | nil =>
      rw [hbytes] at hlength
      exact absurd hlength.symm (Nat.ne_of_gt c.utf8Size_pos)
    | cons byte bytes =>
      rw [hbytes, List.cons_append] at hhead
      rw [hbytes, List.length_cons] at hlength
      rw [List.cons_append, decodeLossyChars, hhead]
      dsimp only
      rw [← hlength, Nat.add_sub_cancel, List.drop_left, ih]

theorem decodeLossy_encodeChars (chars : List Char) :
    decodeLossy (encodeChars chars) = String.ofList chars := by
  rw [decodeLossy, decodeLossyChars_encodeChars]

/-- A character that is read at the front has its bytes there. -/
theorem exists_of_headChar? {bytes : List UInt8} {c : Char} (hhead : headChar? bytes = some c) :
    ∃ rest, bytes = String.utf8EncodeChar c ++ rest := by
  obtain ⟨rest, hrest⟩ := ByteArray.exists_of_utf8DecodeChar?_eq_some hhead
  have htake : bytes.take 4 = String.utf8EncodeChar c ++ rest.data.toList := by
    have hdata := congrArg (fun b : ByteArray => b.data.toList) hrest
    simpa using hdata
  refine ⟨rest.data.toList ++ bytes.drop 4, ?_⟩
  rw [← List.append_assoc, ← htake, List.take_append_drop]

/-- Bytes that are read without a replacement are those of the text. -/
theorem encodeChars_decodeLossyChars {bytes : List UInt8}
    (hwhole : replacement ∉ decodeLossyChars bytes) :
    encodeChars (decodeLossyChars bytes) = bytes := by
  induction bytes using decodeLossyChars.induct with
  | case1 => rw [decodeLossyChars, encodeChars, List.flatMap_nil]
  | case2 byte rest c hhead ih =>
    rw [decodeLossyChars, hhead] at hwhole ⊢
    dsimp only at hwhole ⊢
    obtain ⟨tail, htail⟩ := exists_of_headChar? hhead
    have hdrop : rest.drop (c.utf8Size - 1) = tail := by
      have hall : (byte :: rest).drop c.utf8Size = tail := by
        rw [htail, ← String.length_utf8EncodeChar, List.drop_left]
      rwa [← Nat.sub_add_cancel c.utf8Size_pos, List.drop_succ_cons] at hall
    rw [hdrop] at ih hwhole ⊢
    rw [encodeChars, List.flatMap_cons, ← encodeChars, ih (List.not_mem_of_not_mem_cons hwhole),
      htail]
  | case3 byte rest hhead ih =>
    rw [decodeLossyChars, hhead] at hwhole
    exact absurd List.mem_cons_self hwhole

/-- A byte below 128 stands for the character with that number, and for nothing else. -/
theorem eq_of_mem_utf8EncodeChar {c : Char} {byte : UInt8} (hbyte : byte.toNat < 128)
    (hmem : byte ∈ String.utf8EncodeChar c) : c.toNat = byte.toNat := by
  have hsmall (n : Nat) (hn : n < 256) : (UInt8.ofNat n).toNat = n :=
    UInt8.toNat_ofNat_of_lt' hn
  -- Every byte of a longer encoding has its top bit set.
  have htop (n : Nat) (hlow : 128 ≤ n) (hhigh : n < 256) : byte ≠ UInt8.ofNat n := by
    rintro rfl
    rw [hsmall n hhigh] at hbyte
    omega
  change c.val.toNat = byte.toNat
  unfold String.utf8EncodeChar at hmem
  dsimp only at hmem
  split at hmem
  · obtain rfl := List.mem_singleton.mp hmem
    rw [hsmall _ (by omega)]
  · exfalso
    split at hmem
    · simp only [List.mem_cons, List.not_mem_nil, or_false] at hmem
      rcases hmem with hlead | hnext
      · exact htop _ (by omega) (by omega) hlead
      · exact htop _ (by omega) (by omega) hnext
    · split at hmem <;> simp only [List.mem_cons, List.not_mem_nil, or_false] at hmem
      · rcases hmem with hlead | hnext | hnext
        · exact htop _ (by omega) (by omega) hlead
        · exact htop _ (by omega) (by omega) hnext
        · exact htop _ (by omega) (by omega) hnext
      · rcases hmem with hlead | hnext | hnext | hnext
        · exact htop _ (by omega) (by omega) hlead
        · exact htop _ (by omega) (by omega) hnext
        · exact htop _ (by omega) (by omega) hnext
        · exact htop _ (by omega) (by omega) hnext

/-- A line feed among the bytes is one among the characters. -/
theorem feed_notMem_encodeChars {chars : List Char} (hfeed : '\n' ∉ chars) :
    (0x0A : UInt8) ∉ encodeChars chars := by
  intro hmem
  obtain ⟨c, hc, hbyte⟩ := List.mem_flatMap.mp hmem
  have hcode := eq_of_mem_utf8EncodeChar (by decide) hbyte
  have hc' : c = '\n' := Char.toNat_inj.mp hcode
  exact hfeed (hc' ▸ hc)

end Utf8

namespace Numeral

/-- Reading further digits never makes a number smaller. -/
theorem le_ofDigitChars (digits : List Char) (value : Nat) :
    value ≤ Nat.ofDigitChars 10 digits value := by
  induction digits generalizing value with
  | nil => exact Nat.le_refl _
  | cons c rest ih =>
    rw [Nat.ofDigitChars_cons]
    have hnext := ih (10 * value + (c.toNat - '0'.toNat))
    omega

/-- Digits are read from the left, and no number on the way leaves the bound if the last one does
not. -/
theorem readDigits_eq_ok {bound : Nat} {digits : List Char} {value : Nat}
    (hdigits : ∀ c ∈ digits, c.isDigit = true)
    (hbound : Nat.ofDigitChars 10 digits value < bound) :
    readDigits bound value digits = .ok (Nat.ofDigitChars 10 digits value) := by
  induction digits generalizing value with
  | nil => rfl
  | cons c rest ih =>
    rw [Nat.ofDigitChars_cons, Nat.mul_comm 10] at hbound ⊢
    have hnext := le_ofDigitChars rest (value * 10 + (c.toNat - '0'.toNat))
    have hfits : value * 10 + digitValue c < bound := Nat.lt_of_le_of_lt hnext hbound
    rw [readDigits, if_pos (hdigits c (List.mem_cons_self ..)), if_pos hfits]
    exact ih (fun d hd => hdigits d (List.mem_cons_of_mem _ hd)) hbound

/-- Digits are read as the number that they are, and only if it lies below the bound. -/
theorem readDigits_eq_ok_iff {bound : Nat} {digits : List Char} {value n : Nat}
    (hvalue : value < bound) : readDigits bound value digits = .ok n ↔
      (∀ c ∈ digits, c.isDigit = true) ∧ Nat.ofDigitChars 10 digits value = n ∧ n < bound := by
  constructor
  · intro hread
    induction digits generalizing value with
    | nil =>
      obtain rfl : value = n := Except.ok.inj hread
      exact ⟨by simp, rfl, hvalue⟩
    | cons c rest ih =>
      rw [readDigits] at hread
      split at hread
      · rename_i hdigit
        dsimp only at hread
        split at hread
        · rename_i hnext
          obtain ⟨hrest, hnumber, hbound⟩ := ih hnext hread
          refine ⟨List.forall_mem_cons.mpr ⟨hdigit, hrest⟩, ?_, hbound⟩
          rw [Nat.ofDigitChars_cons, Nat.mul_comm 10]
          exact hnumber
        · cases hread
      · cases hread
  · rintro ⟨hdigits, rfl, hbound⟩
    exact readDigits_eq_ok hdigits hbound

/-- A text spells a number: its decimal digits, behind any zeros and at most one plus sign. -/
def Spells (text : List Char) (n : Nat) : Prop :=
  ∃ digits, (text = digits ∨ text = '+' :: digits) ∧ digits ≠ [] ∧
    (∀ c ∈ digits, c.isDigit = true) ∧ Nat.ofDigitChars 10 digits 0 = n

/-- The texts that are read as a number are those that spell it. -/
theorem readChars_eq_ok_iff {bound : Nat} (hbound : 0 < bound) {text : List Char} {n : Nat} :
    readChars bound text = .ok n ↔ Spells text n ∧ n < bound := by
  have hread (digits : List Char) (hnonempty : digits ≠ []) :
      readDigits bound 0 digits = .ok n ↔ (digits ≠ [] ∧ (∀ c ∈ digits, c.isDigit = true) ∧
        Nat.ofDigitChars 10 digits 0 = n) ∧ n < bound := by
    rw [readDigits_eq_ok_iff hbound, and_assoc, and_iff_right hnonempty, and_assoc]
  unfold readChars
  split
  · constructor
    · intro h
      cases h
    · rintro ⟨⟨digits, htext, hnonempty, -⟩, -⟩
      rcases htext with rfl | htext
      · exact absurd rfl hnonempty
      · cases htext
  · constructor
    · intro h
      cases h
    · rintro ⟨⟨digits, htext, hnonempty, hdigits, -⟩, -⟩
      rcases htext with rfl | htext
      · exact absurd (hdigits '+' List.mem_cons_self) (by decide)
      · exact absurd (List.cons.inj htext).2.symm hnonempty
  · rename_i digits hsome
    have hnonempty : digits ≠ [] := by
      rintro rfl
      exact hsome rfl
    rw [hread digits hnonempty]
    refine and_congr_left fun _ => ⟨fun hspelled => ⟨digits, Or.inr rfl, hspelled⟩, ?_⟩
    rintro ⟨found, htext, hspelled⟩
    rcases htext with rfl | htext
    · exact absurd (hspelled.2.1 '+' List.mem_cons_self) (by decide)
    · rwa [(List.cons.inj htext).2]
  · rename_i hnonempty hsingle hplus
    rw [hread text hnonempty]
    refine and_congr_left fun _ => ⟨fun hspelled => ⟨text, Or.inl rfl, hspelled⟩, ?_⟩
    rintro ⟨found, htext, hspelled⟩
    rcases htext with rfl | htext
    · exact hspelled
    · exact absurd htext (hplus found)

/-- The decimal digits of a number below the bound are read as that number. -/
theorem readChars_toDigits {bound n : Nat} (hbound : n < bound) :
    readChars bound (Nat.toDigits 10 n) = .ok n := by
  have hdigits : ∀ c ∈ Nat.toDigits 10 n, c.isDigit = true :=
    fun c hc => Nat.isDigit_of_mem_toDigits (by decide) (by decide) hc
  have hread : readDigits bound 0 (Nat.toDigits 10 n) = .ok n := by
    rw [readDigits_eq_ok hdigits (by rwa [Nat.ofDigitChars_ten_toDigits]),
      Nat.ofDigitChars_ten_toDigits]
  match hchars : Nat.toDigits 10 n with
  | [] => exact absurd hchars Nat.toDigits_ne_nil
  | c :: rest =>
    rw [hchars] at hdigits hread
    have hplus : c ≠ '+' := by
      rintro rfl
      exact absurd (hdigits '+' (List.mem_cons_self ..)) (by decide)
    rw [readChars]
    · exact hread
    · simp
    · intro hsame
      exact hplus (List.cons.inj hsame).1
    · intro digits hsame
      exact hplus (List.cons.inj hsame).1

end Numeral

section Trimming

variable {p : Char → Bool} {chars : List Char} {c : Char}

theorem dropEndWhile_concat :
    dropEndWhile p (chars ++ [c]) = if p c then dropEndWhile p chars else chars ++ [c] := by
  simp only [dropEndWhile, List.reverse_append, List.reverse_singleton, List.singleton_append,
    List.dropWhile_cons]
  split
  · rfl
  · rw [List.reverse_cons, List.reverse_reverse]

/-- A character at the front that is to be dropped does not matter. -/
theorem dropEndsWhile_cons (hc : p c = true) :
    dropEndsWhile p (c :: chars) = dropEndsWhile p chars := by
  rw [dropEndsWhile, List.dropWhile_cons_of_pos hc, dropEndsWhile]

/-- A character at the end that is to be dropped does not matter. -/
theorem dropEndsWhile_concat (hc : p c = true) :
    dropEndsWhile p (chars ++ [c]) = dropEndsWhile p chars := by
  rw [dropEndsWhile, List.dropWhile_append]
  split
  · rename_i hall
    rw [List.isEmpty_iff] at hall
    rw [dropEndsWhile, hall, List.dropWhile_cons_of_pos hc]
    rfl
  · rw [dropEndWhile_concat, if_pos hc, dropEndsWhile]

private theorem dropWhile_eq_self (hfirst : ∀ c, chars.head? = some c → p c = false) :
    chars.dropWhile p = chars := by
  cases chars with
  | nil => rfl
  | cons first rest => exact List.dropWhile_cons_of_neg (by simp [hfirst first rfl])

/-- Nothing is dropped if the first and the last character stay. -/
theorem dropEndsWhile_eq_self (hfirst : ∀ c, chars.head? = some c → p c = false)
    (hlast : ∀ c, chars.getLast? = some c → p c = false) : dropEndsWhile p chars = chars := by
  rw [dropEndsWhile, dropWhile_eq_self hfirst, dropEndWhile,
    dropWhile_eq_self (by simpa only [List.head?_reverse] using hlast), List.reverse_reverse]

end Trimming

theorem isBlank_of_isDigit {c : Char} (hdigit : c.isDigit = true) : isBlank c = false := by
  simp only [Char.isDigit, Bool.and_eq_true, decide_eq_true_eq, ge_iff_le] at hdigit
  have hlow : 48 ≤ c.toNat := hdigit.1
  have hhigh : c.toNat ≤ 57 := hdigit.2
  simp only [isBlank, Bool.or_eq_false_iff, Bool.and_eq_false_iff, decide_eq_false_iff_not,
    beq_eq_false_iff_ne]
  omega

end LanguageClient
