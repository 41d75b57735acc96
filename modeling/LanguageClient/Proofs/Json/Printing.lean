import LanguageClient.Json.Parser
import LanguageClient.Json.Printer
import LanguageClient.Proofs.Fields

/-!
# Printed values are read back

The compact text of a value is read as that value, whatever may follow it, if its numbers are
integers and its arrays and objects are nested no deeper than the reader allows. A number is the
only value whose end depends on what follows, so what follows must not continue a number. Each
reader undoes the printer of the same part: a character, a text, a number, and then items and
members along with the values in them. Members may be written in any order; they ascend once they
are read.
-/

namespace LanguageClient.Json

mutual

/-- How deep the arrays and objects of a value are nested. -/
def depth : Json → Nat
  | .arr items => itemsDepth items + 1
  | .obj fields => fieldsDepth fields + 1
  | _ => 0

/-- How deep the deepest of some items is nested. -/
def itemsDepth : List Json → Nat
  | [] => 0
  | item :: rest => max (depth item) (itemsDepth rest)

/-- How deep the deepest of some members is nested. -/
def fieldsDepth : List (String × Json) → Nat
  | [] => 0
  | (_, value) :: rest => max (depth value) (fieldsDepth rest)

end

/-- Whether an integer fits into a signed or an unsigned word of 64 bits. -/
def fitsWord (value : Int) : Bool :=
  -9223372036854775808 ≤ value && value < 18446744073709551616

mutual

/-- Whether all numbers of a value are integers. The members of an object ascend by name. -/
def isIntegral : Json → Bool
  | .null | .bool _ | .str _ => true
  | .int value => fitsWord value
  | .decimal .. => false
  | .arr items => areIntegral items
  | .obj fields => decide ((fields.map Prod.fst).Pairwise (· < ·)) && haveIntegral fields

/-- Whether all numbers of some items are integers. -/
def areIntegral : List Json → Bool
  | [] => true
  | item :: rest => isIntegral item && areIntegral rest

/-- Whether all numbers of some members are integers. -/
def haveIntegral : List (String × Json) → Bool
  | [] => true
  | (_, value) :: rest => isIntegral value && haveIntegral rest

end

section Texts

theorem hexValue?_hexDigit : ∀ n < 16, hexValue? (hexDigit n) = some n := by
  decide

/-- The escape of a control character is read as that character. -/
theorem readUnicode_control {c : Char} (hc : c.toNat < 0x20) (rest : List Char) :
    readUnicode ('0' :: '0' :: hexDigit (c.toNat / 16) :: hexDigit (c.toNat % 16) :: rest) =
      some (c, rest) := by
  have hhigh := hexValue?_hexDigit (c.toNat / 16) (by omega)
  have hlow := hexValue?_hexDigit (c.toNat % 16) (by omega)
  have hzero : hexValue? '0' = some 0 := by decide
  have hvalue : ((0 * 16 + 0) * 16 + c.toNat / 16) * 16 + c.toNat % 16 = c.toNat := by omega
  have hread : readHex4 ('0' :: '0' :: hexDigit (c.toNat / 16) :: hexDigit (c.toNat % 16) :: rest) =
      some (c.toNat, rest) := by
    simp only [readHex4, hzero, hhigh, hlow, bind, Option.bind, hvalue]
  have hplain : ¬ (0xD800 ≤ c.toNat) := by omega
  have hsingle : ¬ (0xDC00 ≤ c.toNat) := by omega
  simp [readUnicode, hread, hplain, hsingle]

/-- A simple escape is read as the character that it stands for. -/
theorem readText_escape {c escape : Char} (hescape : escaped? escape = some c) (fuel : Nat)
    (rest : List Char) :
    readText (fuel + 1) ('\\' :: escape :: rest) =
      (readText fuel rest).map fun read => (c :: read.1, read.2) := by
  have hunicode : escape ≠ 'u' := by
    rintro rfl
    cases hescape
  rw [readText]
  · rw [hescape]
    cases readText fuel rest <;> rfl
  · exact hunicode

/-- What is written for a character is read as that character. -/
theorem readText_escapeChar (c : Char) (fuel : Nat) (rest : List Char) :
    readText (fuel + 1) (escapeChar c ++ rest) =
      (readText fuel rest).map fun read => (c :: read.1, read.2) := by
  unfold escapeChar
  by_cases hquote : c = '"'
  · subst hquote
    exact readText_escape rfl fuel rest
  by_cases hslash : c = '\\'
  · subst hslash
    exact readText_escape rfl fuel rest
  by_cases hback : c = '\x08'
  · subst hback
    exact readText_escape rfl fuel rest
  by_cases hform : c = '\x0c'
  · subst hform
    exact readText_escape rfl fuel rest
  by_cases hfeed : c = '\n'
  · subst hfeed
    exact readText_escape rfl fuel rest
  by_cases hreturn : c = '\r'
  · subst hreturn
    exact readText_escape rfl fuel rest
  by_cases htab : c = '\t'
  · subst htab
    exact readText_escape rfl fuel rest
  simp only [beq_iff_eq, hquote, hslash, hback, hform, hfeed, hreturn, htab, if_false]
  by_cases hcontrol : c.toNat < 0x20
  · simp only [if_pos hcontrol, List.cons_append, List.nil_append]
    rw [readText, readUnicode_control hcontrol]
    change ((readText fuel rest).bind fun read => some (c :: read.1, read.2)) = _
    cases readText fuel rest <;> rfl
  · simp only [if_neg hcontrol, List.cons_append, List.nil_append]
    rw [readText]
    · have hplain : ¬ (c.toNat < 32 || c == '\\') = true := by simp [hcontrol, hslash]
      rw [if_neg hplain]
      cases readText fuel rest <;> rfl
    all_goals simp_all

/-- A text behind its opening quote is read up to its closing quote. -/
theorem readText_flatMap (chars rest : List Char) {fuel : Nat} (hfuel : chars.length < fuel) :
    readText fuel (chars.flatMap escapeChar ++ '"' :: rest) = some (chars, rest) := by
  induction chars generalizing fuel with
  | nil =>
    obtain ⟨fuel, rfl⟩ := Nat.exists_eq_add_one_of_ne_zero (Nat.ne_zero_of_lt hfuel)
    rfl
  | cons c chars ih =>
    obtain ⟨fuel, rfl⟩ := Nat.exists_eq_add_one_of_ne_zero (Nat.ne_zero_of_lt hfuel)
    have hrest : chars.length < fuel := by simpa using hfuel
    rw [List.flatMap_cons, List.append_assoc, readText_escapeChar, ih hrest]
    rfl

theorem length_le_flatMap_escapeChar (chars : List Char) :
    chars.length ≤ (chars.flatMap escapeChar).length := by
  induction chars with
  | nil => exact Nat.le_refl 0
  | cons c chars ih =>
    have hpos : 0 < (escapeChar c).length := by
      unfold escapeChar
      repeat' split
      all_goals simp
    rw [List.flatMap_cons, List.length_append, List.length_cons]
    omega

/-- A text with its quotes is read as it was written. -/
theorem readString_printText (text : String) (rest : List Char) :
    readString (printText text ++ rest) = some (text, rest) := by
  have hchars : printText text ++ rest =
      '"' :: (text.toList.flatMap escapeChar ++ '"' :: rest) := by
    simp [printText]
  have hlength := length_le_flatMap_escapeChar text.toList
  have hfuel : text.toList.length <
      (text.toList.flatMap escapeChar ++ '"' :: rest).length + 1 := by
    rw [List.length_append]
    omega
  rw [hchars, readString, readText_flatMap _ _ hfuel]
  simp

end Texts

section Numbers

/-- What follows a number must not continue it. -/
def StopsNumber (rest : List Char) : Prop :=
  ∀ c ∈ rest.head?, c.isDigit = false ∧ c ≠ '.' ∧ c ≠ 'e' ∧ c ≠ 'E'

theorem stopsNumber_nil : StopsNumber [] := by
  intro c hc
  cases hc

theorem stopsNumber_comma (rest : List Char) : StopsNumber (',' :: rest) := by
  intro c hc
  obtain rfl := Option.some.inj hc
  decide

theorem stopsNumber_bracket (rest : List Char) : StopsNumber (']' :: rest) := by
  intro c hc
  obtain rfl := Option.some.inj hc
  decide

theorem stopsNumber_brace (rest : List Char) : StopsNumber ('}' :: rest) := by
  intro c hc
  obtain rfl := Option.some.inj hc
  decide

theorem isDigit_of_mem_toDigits {n : Nat} {c : Char} (hc : c ∈ Nat.toDigits 10 n) :
    c.isDigit = true :=
  Nat.isDigit_of_mem_toDigits (by decide) (by decide) hc

/-- Digits are counted from the left. -/
theorem digitsValue_toDigits (n : Nat) : digitsValue 0 (Nat.toDigits 10 n) = n := by
  have hfold : digitsValue 0 (Nat.toDigits 10 n) = Nat.ofDigitChars 10 (Nat.toDigits 10 n) 0 := by
    rw [Nat.ofDigitChars_eq_foldl, digitsValue]
    congr 1
    funext sum c
    rw [Nat.mul_comm]
  rw [hfold, Nat.ofDigitChars_ten_toDigits]

/-- Only zero begins with a zero. -/
theorem head?_toDigits {n : Nat} (hn : 0 < n) : (Nat.toDigits 10 n).head? ≠ some '0' := by
  induction n using Nat.strongRecOn with
  | ind n ih =>
    rw [Nat.toDigits_eq_if (by decide)]
    by_cases hsmall : n < 10
    · rw [if_pos hsmall]
      have hdigit : ∀ k < 10, 0 < k → k.digitChar ≠ '0' := by decide
      simpa using hdigit n hsmall hn
    · have hsmaller := ih (n / 10) (by omega) (by omega)
      rw [if_neg hsmall]
      cases hdigits : Nat.toDigits 10 (n / 10) with
      | nil => exact absurd hdigits Nat.toDigits_ne_nil
      | cons c digits =>
        rw [hdigits] at hsmaller
        simpa using hsmaller

theorem spanDigits_append {digits rest : List Char} (hdigits : ∀ c ∈ digits, c.isDigit = true)
    (hrest : StopsNumber rest) : spanDigits (digits ++ rest) = (digits, rest) := by
  have htake : rest.takeWhile Char.isDigit = [] := by
    cases rest with
    | nil => rfl
    | cons c rest =>
      have hc := (hrest c rfl).1
      simp [hc]
  have hdrop : rest.dropWhile Char.isDigit = rest := by
    cases rest with
    | nil => rfl
    | cons c rest =>
      have hc := (hrest c rfl).1
      simp [hc]
  rw [spanDigits, List.takeWhile_append_of_pos hdigits, List.dropWhile_append_of_pos hdigits, htake,
    hdrop, List.append_nil]

/-- The digits of a number are read up to their end. -/
theorem readWhole_toDigits (n : Nat) {rest : List Char} (hrest : StopsNumber rest) :
    readWhole (Nat.toDigits 10 n ++ rest) = some (Nat.toDigits 10 n, rest) := by
  rcases Nat.eq_zero_or_pos n with rfl | hn
  · rw [Nat.toDigits_zero, List.singleton_append]
    cases rest with
    | nil => rfl
    | cons c rest =>
      have hc := (hrest c rfl).1
      simp [readWhole, hc]
  · have hhead := head?_toDigits hn
    have hspan : spanDigits (Nat.toDigits 10 n ++ rest) = (Nat.toDigits 10 n, rest) :=
      spanDigits_append (fun c hc => isDigit_of_mem_toDigits hc) hrest
    cases hdigits : Nat.toDigits 10 n with
    | nil => exact absurd hdigits Nat.toDigits_ne_nil
    | cons c digits =>
      rw [hdigits] at hhead hspan
      have hzero : c ≠ '0' := by simpa using hhead
      rw [List.cons_append] at hspan ⊢
      rw [readWhole]
      · rw [hspan]
      · simpa using hzero

/-- Neither a fraction nor an exponent is found behind a whole number. -/
theorem readFraction_of_stops {rest : List Char} (hrest : StopsNumber rest) :
    readFraction rest = some ([], rest) := by
  cases rest with
  | nil => rfl
  | cons c rest =>
    have hpoint := (hrest c rfl).2.1
    rw [readFraction]
    simpa using hpoint

theorem readExponent_of_stops {rest : List Char} (hrest : StopsNumber rest) :
    readExponent rest = some (none, rest) := by
  cases rest with
  | nil => rfl
  | cons c rest =>
    obtain ⟨-, -, hlower, hupper⟩ := hrest c rfl
    simp [readExponent, hlower, hupper]

/-- Decimal digits without a sign are a number that is not negative. -/
theorem readNumber_toDigits (n : Nat) {rest : List Char} (hrest : StopsNumber rest) :
    readNumber (Nat.toDigits 10 n ++ rest) =
      (number? false (Nat.toDigits 10 n) [] none true).map (·, rest) := by
  have hwhole := readWhole_toDigits n hrest
  have hfraction := readFraction_of_stops hrest
  have hexponent := readExponent_of_stops hrest
  cases hdigits : Nat.toDigits 10 n with
  | nil => exact absurd hdigits Nat.toDigits_ne_nil
  | cons c digits =>
    have hminus : c ≠ '-' := by
      rintro rfl
      have hdigit : '-'.isDigit = true := isDigit_of_mem_toDigits (hdigits ▸ List.mem_cons_self ..)
      cases hdigit
    rw [hdigits, List.cons_append] at hwhole
    rw [List.cons_append, readNumber]
    · simp only [hwhole, hfraction, hexponent, bind, Option.bind_some, List.isEmpty_nil,
        Option.isNone_none, Bool.and_true]
      cases number? false (c :: digits) [] none true <;> rfl
    · simpa using hminus

/-- Decimal digits behind a minus sign are a negative number. -/
theorem readNumber_minus (n : Nat) {rest : List Char} (hrest : StopsNumber rest) :
    readNumber ('-' :: Nat.toDigits 10 n ++ rest) =
      (number? true (Nat.toDigits 10 n) [] none true).map (·, rest) := by
  have hwhole := readWhole_toDigits n hrest
  have hfraction := readFraction_of_stops hrest
  have hexponent := readExponent_of_stops hrest
  rw [List.cons_append, readNumber]
  simp only [hwhole, hfraction, hexponent, bind, Option.bind_some, List.isEmpty_nil,
    Option.isNone_none, Bool.and_true]
  cases number? true (Nat.toDigits 10 n) [] none true <;> rfl

/-- Digits without a fraction are an integer, if that fits into a word. -/
theorem number?_toDigits_false {n : Nat} (hn : n < 18446744073709551616) :
    number? false (Nat.toDigits 10 n) [] none true = some (.int n) := by
  have hvalue : digitsValue (digitsValue 0 (Nat.toDigits 10 n)) [] = n := digitsValue_toDigits n
  unfold number?
  rw [hvalue]
  simp [hn]

theorem number?_toDigits_true {n : Nat} (hpos : 0 < n) (hn : n ≤ 9223372036854775808) :
    number? true (Nat.toDigits 10 n) [] none true = some (.int (-n)) := by
  have hvalue : digitsValue (digitsValue 0 (Nat.toDigits 10 n)) [] = n := digitsValue_toDigits n
  unfold number?
  rw [hvalue]
  simp [hn, hpos]

/-- An integer that fits into a word is read as it was written. -/
theorem readNumber_printInt {value : Int} (hvalue : fitsWord value = true) {rest : List Char}
    (hrest : StopsNumber rest) :
    readNumber (printInt value ++ rest) = some (.int value, rest) := by
  simp only [fitsWord, Bool.and_eq_true, decide_eq_true_eq] at hvalue
  obtain ⟨hlow, hhigh⟩ := hvalue
  cases value with
  | ofNat n =>
    have hn : n < 18446744073709551616 := by
      rw [Int.ofNat_eq_natCast] at hhigh
      omega
    rw [printInt, readNumber_toDigits n hrest, number?_toDigits_false hn]
    rfl
  | negSucc n =>
    have hn : n + 1 ≤ 9223372036854775808 := by omega
    rw [printInt, readNumber_minus (n + 1) hrest, number?_toDigits_true (Nat.succ_pos n) hn]
    rfl

end Numbers

section Values

theorem exists_printInt (value : Int) :
    ∃ c chars, printInt value = c :: chars ∧ (c = '-' ∨ c.isDigit = true) := by
  cases value with
  | negSucc n => exact ⟨'-', _, rfl, Or.inl rfl⟩
  | ofNat n =>
    cases hdigits : Nat.toDigits 10 n with
    | nil => exact absurd hdigits Nat.toDigits_ne_nil
    | cons c digits =>
      have hdigit : c.isDigit = true := isDigit_of_mem_toDigits (hdigits ▸ List.mem_cons_self ..)
      exact ⟨c, digits, hdigits, Or.inr hdigit⟩

/-- A character that begins a number begins nothing else. -/
theorem ne_of_beginsNumber {c : Char} (hc : c = '-' ∨ c.isDigit = true) (other : Char)
    (hminus : other ≠ '-') (hdigit : other.isDigit = false) : c ≠ other := by
  rintro rfl
  rcases hc with hc | hc
  · exact hminus hc
  · rw [hc] at hdigit
    cases hdigit

/-- No value begins with a blank or with the end of an array. -/
theorem exists_printChars (value : Json) :
    ∃ c chars, printChars value = c :: chars ∧ isSpace c = false ∧ c ≠ ']' := by
  have hnumber (value : Int) :
      ∃ c chars, printInt value = c :: chars ∧ isSpace c = false ∧ c ≠ ']' := by
    obtain ⟨c, chars, hchars, hc⟩ := exists_printInt value
    have hblank := ne_of_beginsNumber hc ' ' (by decide) (by decide)
    have hfeed := ne_of_beginsNumber hc '\n' (by decide) (by decide)
    have htab := ne_of_beginsNumber hc '\t' (by decide) (by decide)
    have hreturn := ne_of_beginsNumber hc '\r' (by decide) (by decide)
    have hend := ne_of_beginsNumber hc ']' (by decide) (by decide)
    exact ⟨c, chars, hchars, by simp [isSpace, hblank, hfeed, htab, hreturn], hend⟩
  cases value with
  | null => exact ⟨'n', _, rfl, by decide, by decide⟩
  | bool value => cases value <;> exact ⟨_, _, rfl, by decide, by decide⟩
  | int value => exact hnumber value
  | decimal significand exponent =>
    obtain ⟨c, chars, hchars, hc⟩ := hnumber significand
    exact ⟨c, chars ++ 'e' :: printInt exponent, by rw [printChars, hchars]; rfl, hc⟩
  | str text => exact ⟨'"', _, rfl, by decide, by decide⟩
  | arr items => exact ⟨'[', _, rfl, by decide, by decide⟩
  | obj fields => exact ⟨'{', _, rfl, by decide, by decide⟩

theorem skipSpace_cons {c : Char} (hc : isSpace c = false) (chars : List Char) :
    skipSpace (c :: chars) = c :: chars := by
  simp [skipSpace, hc]

theorem skipSpace_printChars (value : Json) (rest : List Char) :
    skipSpace (printChars value ++ rest) = printChars value ++ rest := by
  obtain ⟨c, chars, hchars, hc, -⟩ := exists_printChars value
  rw [hchars, List.cons_append, skipSpace_cons hc]

/-- A member begins with the quote of its name. -/
theorem skipSpace_printText (name : String) (rest : List Char) :
    skipSpace (printText name ++ rest) = printText name ++ rest :=
  skipSpace_cons (by decide) _

/-- What begins neither an array nor an object is read alike at every depth. -/
theorem readValue_scalar (depth : Nat) {c : Char} (hbracket : c ≠ '[') (hbrace : c ≠ '{')
    (chars : List Char) : readValue depth (c :: chars) = readScalar (c :: chars) := by
  cases depth <;> simp [readValue, hbracket, hbrace]

theorem readValue_int (depth : Nat) {value : Int} (hvalue : fitsWord value = true)
    {rest : List Char} (hrest : StopsNumber rest) :
    readValue depth (printInt value ++ rest) = some (.int value, rest) := by
  have hread := readNumber_printInt hvalue hrest
  obtain ⟨c, chars, hchars, hc⟩ := exists_printInt value
  rw [hchars, List.cons_append] at hread ⊢
  have hbracket := ne_of_beginsNumber hc '[' (by decide) (by decide)
  have hbrace := ne_of_beginsNumber hc '{' (by decide) (by decide)
  have hnull := ne_of_beginsNumber hc 'n' (by decide) (by decide)
  have htrue := ne_of_beginsNumber hc 't' (by decide) (by decide)
  have hfalse := ne_of_beginsNumber hc 'f' (by decide) (by decide)
  have hquote := ne_of_beginsNumber hc '"' (by decide) (by decide)
  rw [readValue_scalar depth hbracket hbrace, readScalar]
  · exact hread
  all_goals simp [hnull, htrue, hfalse, hquote]

theorem readValue_str (depth : Nat) (text : String) (rest : List Char) :
    readValue depth (printText text ++ rest) = some (.str text, rest) := by
  have hread := readString_printText text rest
  have hchars : printText text ++ rest =
      '"' :: (text.toList.flatMap escapeChar ++ ['"'] ++ rest) := rfl
  rw [hchars] at hread ⊢
  rw [readValue_scalar depth (by decide) (by decide), readScalar, hread]
  rfl

/-- A member behind all others is put in at the end. -/
theorem insertField_of_ascends {name : String} {value : Json} {fields : List (String × Json)}
    (hbefore : ∀ other ∈ fields.map Prod.fst, other < name) :
    insertField name value fields = fields ++ [(name, value)] := by
  induction fields with
  | nil => rfl
  | cons field rest ih =>
    obtain ⟨first, old⟩ := field
    obtain ⟨hfirst, hrest⟩ := List.forall_mem_cons.mp hbefore
    have hafter : ¬ name < first := String.lt_asymm hfirst
    have hne : name ≠ first := by
      rintro rfl
      exact String.lt_irrefl _ hfirst
    rw [insertField, if_neg hafter, if_neg hne, ih hrest, List.cons_append]

/-- Members that ascend are put in as they stand. -/
theorem object_of_ascends {fields : List (String × Json)}
    (hascends : (fields.map Prod.fst).Pairwise (· < ·)) : Json.object fields = .obj fields := by
  have hfold : ∀ before : List (String × Json),
      ((before ++ fields).map Prod.fst).Pairwise (· < ·) →
        fields.foldl (fun sorted field => insertField field.1 field.2 sorted) before =
          before ++ fields := by
    clear hascends
    induction fields with
    | nil =>
      intro before _
      simp
    | cons field rest ih =>
      intro before hbefore
      rw [List.append_cons] at hbefore
      have hlast : ∀ other ∈ before.map Prod.fst, other < field.1 := by
        rw [List.map_append, List.map_append] at hbefore
        have hfront := (List.pairwise_append.mp hbefore).1
        intro other hother
        exact (List.pairwise_append.mp hfront).2.2 other hother _ (by simp)
      rw [List.foldl_cons, insertField_of_ascends hlast, ih _ hbefore, ← List.append_cons]
  rw [Json.object, hfold [] hascends, List.nil_append]

theorem length_le_printItems (items : List Json) : items.length ≤ (printItems items).length := by
  induction items with
  | nil => exact Nat.le_refl 0
  | cons item rest ih =>
    obtain ⟨c, chars, hchars, -⟩ := exists_printChars item
    cases rest with
    | nil => simp [printItems, hchars]
    | cons next rest =>
      simp only [printItems, hchars, List.length_append, List.length_cons] at ih ⊢
      omega

theorem length_le_printFields (fields : List (String × Json)) :
    fields.length ≤ (printFields fields).length := by
  induction fields with
  | nil => exact Nat.le_refl 0
  | cons field rest ih =>
    obtain ⟨name, value⟩ := field
    cases rest with
    | nil =>
      simp only [printFields, List.length_append, List.length_cons, List.length_nil]
      omega
    | cons next rest =>
      simp only [printFields, List.length_append, List.length_cons] at ih ⊢
      omega

/-- Items begin as the first of them does. -/
theorem exists_printItems (item : Json) (items : List Json) :
    ∃ c more, printItems (item :: items) = c :: more ∧ isSpace c = false ∧ c ≠ ']' := by
  obtain ⟨c, chars, hchars, hc⟩ := exists_printChars item
  cases items with
  | nil => exact ⟨c, chars, hchars, hc⟩
  | cons next items =>
    refine ⟨c, chars ++ ',' :: printItems (next :: items), ?_, hc⟩
    rw [printItems, hchars, List.cons_append]
    simp

/-- Members begin with a quote. -/
theorem exists_printFields (field : String × Json) (fields : List (String × Json)) :
    ∃ more, printFields (field :: fields) = '"' :: more := by
  obtain ⟨name, value⟩ := field
  cases fields <;> exact ⟨_, rfl⟩

/-- A reader reads a value that was written as another value, whatever follows it. -/
def ReadsAs (reader : List Char → Option (Json × List Char)) (value found : Json) : Prop :=
  ∀ rest, StopsNumber rest → reader (printChars value ++ rest) = some (found, rest)

/-- A reader reads a value as it was written. -/
abbrev Reads (reader : List Char → Option (Json × List Char)) (value : Json) : Prop :=
  ReadsAs reader value value

variable {reader : List Char → Option (Json × List Char)}

/-- Items are read up to the end of their array, if each of them is read. -/
theorem readItems_printItems {items : List Json} (hitems : ∀ item ∈ items, Reads reader item)
    (hnonempty : items ≠ []) {fuel : Nat} (hfuel : items.length ≤ fuel) (rest : List Char) :
    readItems reader fuel (printItems items ++ ']' :: rest) = some (items, rest) := by
  induction items generalizing fuel with
  | nil => exact absurd rfl hnonempty
  | cons item items ih =>
    obtain ⟨hitem, hlater⟩ := List.forall_mem_cons.mp hitems
    obtain ⟨fuel, rfl⟩ := Nat.exists_eq_add_one_of_ne_zero (Nat.ne_zero_of_lt hfuel)
    cases items with
    | nil =>
      have hread := hitem (']' :: rest) (stopsNumber_bracket rest)
      have hend : skipSpace (']' :: rest) = ']' :: rest := skipSpace_cons (by decide) rest
      rw [readItems, printItems, skipSpace_printChars, hread]
      simp only [bind, Option.bind_some, hend]
    | cons next items =>
      have hmore := ih hlater (List.cons_ne_nil _ _) (Nat.le_of_succ_le_succ hfuel)
      have hread := hitem (',' :: (printItems (next :: items) ++ ']' :: rest)) (stopsNumber_comma _)
      have hchars : printItems (item :: next :: items) ++ ']' :: rest =
          printChars item ++ ',' :: (printItems (next :: items) ++ ']' :: rest) := by
        simp [printItems]
      have hcomma (chars : List Char) : skipSpace (',' :: chars) = ',' :: chars :=
        skipSpace_cons (by decide) chars
      rw [readItems, hchars, skipSpace_printChars, hread]
      simp only [bind, Option.bind_some, hcomma, hmore]

/-- A reader reads a member that was written as another one: its name stays, and its value may be
read as another value. -/
def ReadsMember (reader : List Char → Option (Json × List Char))
    (field found : String × Json) : Prop :=
  field.1 = found.1 ∧ ReadsAs reader field.2 found.2

/-- A member is read as its name and its value are. -/
theorem readField_of_reads {field found : String × Json} (hfield : ReadsMember reader field found)
    {rest : List Char} (hrest : StopsNumber rest) :
    readField reader (printText field.1 ++ ':' :: (printChars field.2 ++ rest)) =
      some (found, rest) := by
  obtain ⟨name, value⟩ := field
  obtain ⟨rfl, hvalue⟩ := hfield
  have hread := hvalue rest hrest
  have hcolon (chars : List Char) : skipSpace (':' :: chars) = ':' :: chars :=
    skipSpace_cons (by decide) chars
  rw [readField, skipSpace_printText, readString_printText]
  simp only [bind, Option.bind_some, hcolon, skipSpace_printChars, hread]

/-- Members are read up to the end of their object, if the value of each of them is read. -/
theorem readFields_printFields {fields found : List (String × Json)}
    (hfields : List.Forall₂ (ReadsMember reader) fields found) (hnonempty : fields ≠ [])
    {fuel : Nat} (hfuel : fields.length ≤ fuel) (rest : List Char) :
    readFields reader fuel (printFields fields ++ '}' :: rest) = some (found, rest) := by
  induction hfields generalizing fuel with
  | nil => exact absurd rfl hnonempty
  | @cons field member fields found hfield hlater ih =>
    obtain ⟨fuel, rfl⟩ := Nat.exists_eq_add_one_of_ne_zero (Nat.ne_zero_of_lt hfuel)
    cases hlater with
    | nil =>
      have hread := readField_of_reads hfield (stopsNumber_brace rest)
      have hend : skipSpace ('}' :: rest) = '}' :: rest := skipSpace_cons (by decide) rest
      have hchars : printFields [field] ++ '}' :: rest =
          printText field.1 ++ ':' :: (printChars field.2 ++ '}' :: rest) := by
        simp [printFields]
      rw [readFields, hchars, hread]
      simp only [bind, Option.bind_some, hend]
    | @cons next _ fields _ _ _ =>
      have hmore := ih (List.cons_ne_nil _ _) (Nat.le_of_succ_le_succ hfuel)
      have hread := readField_of_reads hfield
        (stopsNumber_comma (printFields (next :: fields) ++ '}' :: rest))
      have hchars : printFields (field :: next :: fields) ++ '}' :: rest = printText field.1 ++
          ':' :: (printChars field.2 ++ ',' :: (printFields (next :: fields) ++ '}' :: rest)) := by
        simp [printFields]
      have hcomma (chars : List Char) : skipSpace (',' :: chars) = ',' :: chars :=
        skipSpace_cons (by decide) chars
      rw [readFields, hchars, hread]
      simp only [bind, Option.bind_some, hcomma, hmore]

theorem isIntegral_of_mem {items : List Json} (hitems : areIntegral items = true) :
    ∀ item ∈ items, item.isIntegral = true := by
  induction items with
  | nil => simp
  | cons first rest ih =>
    rw [areIntegral, Bool.and_eq_true] at hitems
    exact List.forall_mem_cons.mpr ⟨hitems.1, ih hitems.2⟩

theorem isIntegral_of_mem_fields {fields : List (String × Json)}
    (hfields : haveIntegral fields = true) : ∀ field ∈ fields, field.2.isIntegral = true := by
  induction fields with
  | nil => simp
  | cons first rest ih =>
    rw [haveIntegral, Bool.and_eq_true] at hfields
    exact List.forall_mem_cons.mpr ⟨hfields.1, ih hfields.2⟩

theorem depth_le_itemsDepth {items : List Json} {item : Json} (hitem : item ∈ items) :
    item.depth ≤ itemsDepth items := by
  induction items with
  | nil => cases hitem
  | cons first rest ih =>
    rw [itemsDepth]
    rcases List.mem_cons.mp hitem with rfl | hlater
    · omega
    · have hrest := ih hlater
      omega

theorem depth_le_fieldsDepth {fields : List (String × Json)} {field : String × Json}
    (hfield : field ∈ fields) : field.2.depth ≤ fieldsDepth fields := by
  induction fields with
  | nil => cases hfield
  | cons first rest ih =>
    rw [fieldsDepth]
    rcases List.mem_cons.mp hfield with rfl | hlater
    · omega
    · have hrest := ih hlater
      omega

/-- An array is read if its items are. -/
theorem readValue_arr {depth : Nat} {items : List Json}
    (hitems : ∀ item ∈ items, Reads (readValue depth) item) (rest : List Char) :
    readValue (depth + 1) (printChars (.arr items) ++ rest) = some (.arr items, rest) := by
  cases items with
  | nil => rfl
  | cons item items =>
    have hfuel : (item :: items).length ≤ (printItems (item :: items) ++ ']' :: rest).length := by
      have hlength := length_le_printItems (item :: items)
      rw [List.length_append]
      omega
    have hread := readItems_printItems hitems (List.cons_ne_nil _ _) hfuel rest
    have hchars : printChars (.arr (item :: items)) ++ rest =
        '[' :: (printItems (item :: items) ++ ']' :: rest) := by
      simp [printChars]
    obtain ⟨c, more, hmore, hblank, hend⟩ := exists_printItems item items
    rw [hmore, List.cons_append] at hread hchars
    rw [hchars, readValue, skipSpace_cons hblank]
    split
    · rename_i hsame
      exact absurd (List.cons.inj hsame).1 hend
    · rw [hread]
      rfl

/-- An object is read if its members are; in whatever order they stand, they ascend then. -/
theorem readsAs_obj {depth : Nat} {fields found : List (String × Json)}
    (hfields : List.Forall₂ (ReadsMember (readValue depth)) fields found) :
    ReadsAs (readValue (depth + 1)) (.obj fields) (Json.object found) := by
  intro rest _
  cases fields with
  | nil =>
    cases hfields
    rfl
  | cons field fields =>
    have hfuel : (field :: fields).length ≤
        (printFields (field :: fields) ++ '}' :: rest).length := by
      have hlength := length_le_printFields (field :: fields)
      rw [List.length_append]
      omega
    have hread := readFields_printFields hfields (List.cons_ne_nil _ _) hfuel rest
    have hchars : printChars (.obj (field :: fields)) ++ rest =
        '{' :: (printFields (field :: fields) ++ '}' :: rest) := by
      simp [printChars]
    obtain ⟨more, hmore⟩ := exists_printFields field fields
    rw [hmore, List.cons_append] at hread hchars
    rw [hchars, readValue, skipSpace_cons (by decide)]
    split
    · rename_i hsame
      cases hsame
    · rw [hread]
      rfl

/-- What is neither an array nor an object is read at every depth. -/
theorem reads_flat (depth : Nat) {value : Json} (hintegral : value.isIntegral = true)
    (hflat : value.depth = 0) : Reads (readValue depth) value := by
  intro rest hrest
  cases value with
  | arr | obj => simp [Json.depth] at hflat
  | null =>
    rw [show printChars .null = 'n' :: "ull".toList from rfl, List.cons_append,
      readValue_scalar depth (by decide) (by decide)]
    rfl
  | bool value =>
    cases value with
    | true =>
      rw [show printChars (.bool true) = 't' :: "rue".toList from rfl, List.cons_append,
        readValue_scalar depth (by decide) (by decide)]
      rfl
    | false =>
      rw [show printChars (.bool false) = 'f' :: "alse".toList from rfl, List.cons_append,
        readValue_scalar depth (by decide) (by decide)]
      rfl
  | int value => exact readValue_int depth hintegral hrest
  | decimal => cases hintegral
  | str text => exact readValue_str depth text rest

/-- A value is read as it was written, if it is not nested too deeply. -/
theorem reads_readValue {depth : Nat} {value : Json} (hintegral : value.isIntegral = true)
    (hdepth : value.depth ≤ depth) : Reads (readValue depth) value := by
  induction depth generalizing value with
  | zero => exact reads_flat 0 hintegral (Nat.le_zero.mp hdepth)
  | succ depth ih =>
    cases value with
    | arr items =>
      have hitems : itemsDepth items ≤ depth := Nat.le_of_succ_le_succ hdepth
      refine fun rest _ => readValue_arr (fun item hitem => ?_) rest
      have hitem_depth := depth_le_itemsDepth hitem
      exact ih (isIntegral_of_mem hintegral item hitem) (by omega)
    | obj fields =>
      have hfields : fieldsDepth fields ≤ depth := Nat.le_of_succ_le_succ hdepth
      rw [isIntegral, Bool.and_eq_true, decide_eq_true_eq] at hintegral
      have hmembers : List.Forall₂ (ReadsMember (readValue depth)) fields fields := by
        refine List.forall₂_same.mpr fun field hfield => ⟨rfl, ?_⟩
        have hfield_depth := depth_le_fieldsDepth hfield
        exact ih (isIntegral_of_mem_fields hintegral.2 field hfield) (by omega)
      have hread := readsAs_obj hmembers
      rwa [object_of_ascends hintegral.1] at hread
    | null | bool | int | decimal | str => exact reads_flat _ hintegral rfl

/-- The compact text of a value is read as what its characters are read as. -/
theorem parseWithin?_of_readsAs {value found : Json} {depth : Nat}
    (hreads : ReadsAs (readValue depth) value found) :
    parseWithin? depth value.print = some found := by
  have hspace := skipSpace_printChars value []
  have hread := hreads [] stopsNumber_nil
  rw [List.append_nil] at hspace hread
  rw [parseWithin?, print, String.toList_ofList, hspace, hread]
  rfl

end Values

end LanguageClient.Json
