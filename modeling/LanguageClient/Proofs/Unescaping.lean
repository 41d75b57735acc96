import LanguageClient.Proofs.Addresses

/-!
# What escaped texts stand for

An escaped text stands for the bytes of its escapes and for everything else as it is. It is read as
that exactly if nothing of it is lost: a percent sign that begins no escape takes the two bytes
after it along. This shows unless the percent sign is the last byte, or the two bytes are made up
for by the rest of an escape that they cut apart.
-/

namespace LanguageClient

namespace Uri

/-- The hexadecimal digits, by their values. -/
def digits : List Char :=
  ['0', '1', '2', '3', '4', '5', '6', '7', '8', '9', 'a', 'b', 'c', 'd', 'e', 'f']

/-- The value of a hexadecimal digit, which may be in upper case. -/
def digitValue? (byte : UInt8) : Option Nat :=
  digits.idxOf? (Char.ofNat byte.toNat).toLower

/-- The byte that a percent sign and two digits stand for. -/
def escapeValue? (high low : UInt8) : Option UInt8 := do
  let high ← digitValue? high
  let low ← digitValue? low
  some (UInt8.ofNat (16 * high + low))

/-- The bytes that a text stands for: each escape stands for its byte, and everything else for
itself. -/
def standsFor : List UInt8 → List UInt8
  | 0x25 :: high :: low :: rest =>
    match escapeValue? high low with
    | some value => value :: standsFor rest
    | none => 0x25 :: standsFor (high :: low :: rest)
  | byte :: rest => byte :: standsFor rest
  | [] => []

/-- What holds of each number below 256 holds of every byte. -/
theorem forall_byte {p : UInt8 → Prop} (hall : ∀ n < 256, p (UInt8.ofNat n)) (byte : UInt8) :
    p byte := by
  have hbyte := hall byte.toNat byte.toNat_lt
  rwa [UInt8.ofNat_toNat] at hbyte

theorem hexValue?_eq (byte : UInt8) : hexValue? byte = (digitValue? byte).map UInt8.ofNat :=
  forall_byte (p := fun byte => hexValue? byte = (digitValue? byte).map UInt8.ofNat)
    (by decide +kernel) byte

/-- A decimal digit. -/
def IsDecimal (byte : UInt8) : Prop :=
  48 ≤ byte.toNat ∧ byte.toNat < 58

/-- Where the digits stand among the bytes. -/
theorem digit_cases {byte : UInt8} {value : Nat} (hdigit : digitValue? byte = some value) :
    byte.toNat = 48 + value ∧ value < 10 ∨
      (byte.toNat = 55 + value ∨ byte.toNat = 87 + value) ∧ 10 ≤ value ∧ value < 16 := by
  have hall := forall_byte (p := fun byte => ((digitValue? byte).all fun value =>
    byte.toNat = 48 + value ∧ value < 10 ∨
      (byte.toNat = 55 + value ∨ byte.toNat = 87 + value) ∧ 10 ≤ value ∧ value < 16) = true)
    (by decide +kernel) byte
  rw [hdigit] at hall
  exact of_decide_eq_true hall

/-- Escapes are read as the bytes that they stand for. -/
theorem escapedByte?_eq (high low : UInt8) :
    escapedByte? (some high) (some low) = escapeValue? high low := by
  have hvalue (h l : Nat) : UInt8.ofNat h * 16 + UInt8.ofNat l = UInt8.ofNat (16 * h + l) := by
    apply UInt8.toNat.inj
    simp
    omega
  rw [escapedByte?, escapeValue?, Option.bind_some, Option.bind_some, hexValue?_eq, hexValue?_eq]
  cases digitValue? high <;> cases digitValue? low <;> simp [hvalue]

/-- An escape has two digits, which make up its value. -/
theorem escapeValue?_eq_some {high low value : UInt8}
    (hvalue : escapeValue? high low = some value) : ∃ h l, digitValue? high = some h ∧
      digitValue? low = some l ∧ value = UInt8.ofNat (16 * h + l) := by
  obtain ⟨h, hhigh, hrest⟩ := Option.bind_eq_some_iff.mp hvalue
  obtain ⟨l, hlow, heq⟩ := Option.bind_eq_some_iff.mp hrest
  exact ⟨h, l, hhigh, hlow, (Option.some.inj heq).symm⟩

/-- The digits of an escape begin no escape. -/
theorem digits_ne_sign {high low value : UInt8} (hvalue : escapeValue? high low = some value) :
    high ≠ 0x25 ∧ low ≠ 0x25 := by
  have hdigit {byte : UInt8} {n : Nat} (hn : digitValue? byte = some n) : byte ≠ 0x25 := by
    rintro rfl
    have hsign : (0x25 : UInt8).toNat = 37 := rfl
    have hcases := digit_cases hn
    omega
  obtain ⟨h, l, hhigh, hlow, -⟩ := escapeValue?_eq_some hvalue
  exact ⟨hdigit hhigh, hdigit hlow⟩

/-- An escape stands for its second digit exactly if this is a decimal digit and the first one is a
three. -/
theorem escapeValue?_eq_low_iff (high low : UInt8) :
    escapeValue? high low = some low ↔ high = 0x33 ∧ IsDecimal low := by
  constructor
  · intro hvalue
    obtain ⟨h, l, hhigh, hlow, heq⟩ := escapeValue?_eq_some hvalue
    have hhigh_cases := digit_cases hhigh
    have hlow_cases := digit_cases hlow
    -- A decimal digit `l` is the byte `48 + l`, so that `16 * h` is 48; letters leave no such `h`.
    have hsum : low.toNat = 16 * h + l := by
      rw [heq, UInt8.toNat_ofNat_of_lt']
      change 16 * h + l < 256
      omega
    have hthree : high.toNat = (0x33 : UInt8).toNat := by
      change high.toNat = 51
      omega
    refine ⟨UInt8.toNat.inj hthree, ?_, ?_⟩ <;> omega
  · rintro ⟨rfl, hlow⟩
    exact forall_byte (p := fun low => 48 ≤ low.toNat ∧ low.toNat < 58 →
      escapeValue? 0x33 low = some low) (by decide +kernel) low hlow

section Reading

variable {byte high low value : UInt8} {rest : List UInt8}

theorem standsFor_cons (hbyte : byte ≠ 0x25) (rest : List UInt8) :
    standsFor (byte :: rest) = byte :: standsFor rest := by
  rw [standsFor]
  simp [hbyte]

theorem standsFor_escape (hvalue : escapeValue? high low = some value) (rest : List UInt8) :
    standsFor (0x25 :: high :: low :: rest) = value :: standsFor rest := by
  rw [standsFor, hvalue]

theorem standsFor_sign (hvalue : escapeValue? high low = none) (rest : List UInt8) :
    standsFor (0x25 :: high :: low :: rest) = 0x25 :: standsFor (high :: low :: rest) := by
  rw [standsFor, hvalue]

theorem unescapeBytes_escape (hvalue : escapeValue? high low = some value) (rest : List UInt8) :
    unescapeBytes (0x25 :: high :: low :: rest) = value :: unescapeBytes rest := by
  rw [unescapeBytes, escapedByte?_eq, hvalue, Option.getD_some]

theorem unescapeBytes_sign (hvalue : escapeValue? high low = none) (rest : List UInt8) :
    unescapeBytes (0x25 :: high :: low :: rest) = 0x25 :: unescapeBytes rest := by
  rw [unescapeBytes, escapedByte?_eq, hvalue, Option.getD_none]

/-- An escape stands at the front, or the first byte stands for itself. -/
theorem standsFor_cases (byte : UInt8) (rest : List UInt8) :
    (∃ high low value tail, byte = 0x25 ∧ rest = high :: low :: tail ∧
      escapeValue? high low = some value) ∨
    standsFor (byte :: rest) = byte :: standsFor rest := by
  by_cases hbyte : byte = 0x25
  · subst hbyte
    match rest with
    | [] => exact Or.inr rfl
    | [_] => exact Or.inr rfl
    | high :: low :: tail =>
      cases hvalue : escapeValue? high low with
      | none => exact Or.inr (standsFor_sign hvalue tail)
      | some value => exact Or.inl ⟨high, low, value, tail, rfl, rfl, hvalue⟩
  · exact Or.inr (standsFor_cons hbyte rest)

theorem unescapeBytes_digits (hvalue : escapeValue? high low = some value) (rest : List UInt8) :
    unescapeBytes (high :: low :: rest) = high :: low :: unescapeBytes rest := by
  obtain ⟨hhigh, hlow⟩ := digits_ne_sign hvalue
  rw [unescapeBytes_cons hhigh, unescapeBytes_cons hlow]

theorem standsFor_digits (hvalue : escapeValue? high low = some value) (rest : List UInt8) :
    standsFor (high :: low :: rest) = high :: low :: standsFor rest := by
  obtain ⟨hhigh, hlow⟩ := digits_ne_sign hvalue
  rw [standsFor_cons hhigh, standsFor_cons hlow]

end Reading

section Lengths

/-- A byte in front makes a text stand for at most one byte less. -/
theorem length_standsFor_le (byte : UInt8) (rest : List UInt8) :
    (standsFor rest).length ≤ (standsFor (byte :: rest)).length + 1 := by
  obtain ⟨high, low, value, tail, rfl, rfl, hvalue⟩ | hplain := standsFor_cases byte rest
  · rw [standsFor_escape hvalue, standsFor_digits hvalue]
    exact Nat.le_refl _
  · rw [hplain, List.length_cons]
    omega

/-- Two bytes in front never make a text stand for less. -/
theorem length_standsFor_le_two (first second : UInt8) (rest : List UInt8) :
    (standsFor rest).length ≤ (standsFor (first :: second :: rest)).length := by
  obtain ⟨high, low, value, tail, rfl, heq, hvalue⟩ | hplain :=
    standsFor_cases first (second :: rest)
  · obtain ⟨rfl, rfl⟩ := List.cons.inj heq
    rw [standsFor_escape hvalue, standsFor_cons (digits_ne_sign hvalue).2]
    exact Nat.le_refl _
  · rw [hplain, List.length_cons]
    exact length_standsFor_le second rest

/-- No more is read than a text stands for. -/
theorem length_unescapeBytes_le (bytes : List UInt8) :
    (unescapeBytes bytes).length ≤ (standsFor bytes).length := by
  induction bytes using unescapeBytes.induct with
  | case1 high low rest ih =>
    cases hvalue : escapeValue? high low with
    | some value =>
      rw [unescapeBytes_escape hvalue, standsFor_escape hvalue]
      exact Nat.succ_le_succ ih
    | none =>
      rw [unescapeBytes_sign hvalue, standsFor_sign hvalue]
      exact Nat.succ_le_succ (Nat.le_trans ih (length_standsFor_le_two high low rest))
  | case2 rest hshort =>
    match rest with
    | [] => exact Nat.le_refl _
    | [byte] => exact Nat.le_add_left 1 _
    | high :: low :: rest => exact absurd rfl (hshort high low rest)
  | case3 byte rest _ hbyte ih =>
    rw [unescapeBytes_cons hbyte, standsFor_cons hbyte]
    exact Nat.succ_le_succ ih
  | case4 => exact Nat.le_refl _

end Lengths

/-- Texts of which nothing is lost. Percent signs stand in escapes or at the end, save where the
text goes on so that what is lost is read all the same: the escape of a decimal digit ends in this
digit. -/
inductive Kept : List UInt8 → Prop
  | nil : Kept []
  | plain (byte : UInt8) (rest : List UInt8) (hbyte : byte ≠ 0x25) (hrest : Kept rest) :
      Kept (byte :: rest)
  | escape (high low value : UInt8) (rest : List UInt8)
      (hvalue : escapeValue? high low = some value) (hrest : Kept rest) :
      Kept (0x25 :: high :: low :: rest)
  | last : Kept [0x25]
  | doubled (digit : UInt8) (rest : List UInt8) (hdigit : IsDecimal digit)
      (hrest : Kept rest) : Kept (0x25 :: 0x25 :: 0x33 :: digit :: rest)
  | split (digit : UInt8) (rest : List UInt8) (hdigit : IsDecimal digit)
      (hrest : Kept rest) : Kept (0x25 :: 0x33 :: 0x25 :: 0x33 :: digit :: rest)

/-- What is kept is read as what it stands for. -/
theorem Kept.unescapeBytes_eq {bytes : List UInt8} (hkept : Kept bytes) :
    unescapeBytes bytes = standsFor bytes := by
  induction hkept with
  | nil => rfl
  | plain byte rest hbyte _ ih => rw [unescapeBytes_cons hbyte, standsFor_cons hbyte, ih]
  | escape high low value rest hvalue _ ih =>
    rw [unescapeBytes_escape hvalue, standsFor_escape hvalue, ih]
  | last => rfl
  | doubled digit rest hdigit _ ih =>
    have hvalue := (escapeValue?_eq_low_iff 0x33 digit).mpr ⟨rfl, hdigit⟩
    have hsign : escapeValue? 0x25 0x33 = none := by decide +kernel
    rw [unescapeBytes_sign hsign, unescapeBytes_cons (digits_ne_sign hvalue).2,
      standsFor_sign hsign, standsFor_escape hvalue, ih]
  | split digit rest hdigit _ ih =>
    have hvalue := (escapeValue?_eq_low_iff 0x33 digit).mpr ⟨rfl, hdigit⟩
    have hsign : escapeValue? 0x33 0x25 = none := by decide +kernel
    rw [unescapeBytes_sign hsign, unescapeBytes_digits hvalue, standsFor_sign hsign,
      standsFor_cons (digits_ne_sign hvalue).1, standsFor_escape hvalue, ih]

/-- After a percent sign that begins no escape, only the escape of a decimal digit makes up for the
two bytes that are lost. -/
theorem kept_of_sign {first second : UInt8} {rest : List UInt8}
    (hsame : unescapeBytes rest = standsFor (first :: second :: rest))
    (hkept : ∀ tail, tail <:+ rest → unescapeBytes tail = standsFor tail → Kept tail) :
    Kept (0x25 :: first :: second :: rest) := by
  obtain ⟨high, low, value, tail, rfl, heq, hvalue⟩ | hfirst :=
    standsFor_cases first (second :: rest)
  · obtain ⟨rfl, rfl⟩ := List.cons.inj heq
    rw [standsFor_escape hvalue, unescapeBytes_cons (digits_ne_sign hvalue).2] at hsame
    obtain ⟨rfl, htail⟩ := List.cons.inj hsame
    obtain ⟨rfl, hdigit⟩ := (escapeValue?_eq_low_iff _ _).mp hvalue
    exact .doubled low tail hdigit (hkept tail (List.suffix_cons low tail) htail)
  rw [hfirst] at hsame
  obtain ⟨high, low, value, tail, rfl, rfl, hvalue⟩ | hsecond := standsFor_cases second rest
  · rw [standsFor_escape hvalue, unescapeBytes_digits hvalue] at hsame
    obtain ⟨rfl, hrest⟩ := List.cons.inj hsame
    obtain ⟨rfl, htail⟩ := List.cons.inj hrest
    obtain ⟨rfl, hdigit⟩ := (escapeValue?_eq_low_iff _ _).mp hvalue
    have hsuffix : tail <:+ 0x33 :: low :: tail := ⟨[0x33, low], rfl⟩
    exact .split low tail hdigit (hkept tail hsuffix htail)
  · -- Nothing makes up for the two bytes.
    have hlength := length_unescapeBytes_le rest
    rw [hsame, hsecond, List.length_cons, List.length_cons] at hlength
    omega

/-- What is read as what it stands for is kept. -/
theorem kept_of_unescapeBytes_eq (bytes : List UInt8)
    (hsame : unescapeBytes bytes = standsFor bytes) : Kept bytes := by
  induction hlength : bytes.length using Nat.strongRecOn generalizing bytes with
  | ind length ih =>
    subst hlength
    match bytes with
    | [] => exact .nil
    | byte :: rest =>
      by_cases hbyte : byte = 0x25
      · subst hbyte
        match rest with
        | [] => exact .last
        | [_] => exact absurd (congrArg List.length hsame) (by simp [unescapeBytes, standsFor])
        | first :: second :: rest =>
          cases hvalue : escapeValue? first second with
          | some value =>
            rw [unescapeBytes_escape hvalue, standsFor_escape hvalue] at hsame
            exact .escape first second value rest hvalue
              (ih _ (by simp only [List.length_cons]; omega) rest (List.cons.inj hsame).2 rfl)
          | none =>
            rw [unescapeBytes_sign hvalue, standsFor_sign hvalue] at hsame
            refine kept_of_sign (List.cons.inj hsame).2 fun tail hsuffix htail => ?_
            have hle := hsuffix.length_le
            exact ih _ (by simp only [List.length_cons]; omega) tail htail rfl
      · rw [unescapeBytes_cons hbyte, standsFor_cons hbyte] at hsame
        exact .plain byte rest hbyte
          (ih _ (Nat.lt_succ_self rest.length) rest (List.cons.inj hsame).2 rfl)

/-- Exactly what is kept is read as what it stands for. -/
theorem unescapeBytes_eq_iff (bytes : List UInt8) :
    unescapeBytes bytes = standsFor bytes ↔ Kept bytes :=
  ⟨kept_of_unescapeBytes_eq bytes, Kept.unescapeBytes_eq⟩

section Texts

/-- The text that an escaped text stands for. -/
def meant (text : String) : String :=
  Utf8.decodeLossy (standsFor (Utf8.encode text))

/-- Somewhere, a percent sign is followed by two digits. -/
def HasEscape (bytes : List UInt8) : Prop :=
  ∃ high low value, escapeValue? high low = some value ∧ [0x25, high, low] <:+: bytes

theorem HasEscape.cons {bytes : List UInt8} (hescape : HasEscape bytes) (byte : UInt8) :
    HasEscape (byte :: bytes) := by
  obtain ⟨high, low, value, hvalue, hinfix⟩ := hescape
  exact ⟨high, low, value, hvalue, List.infix_cons hinfix⟩

theorem hasEscape_of_digits {high low value : UInt8} (hvalue : escapeValue? high low = some value)
    (rest : List UInt8) : HasEscape (0x25 :: high :: low :: rest) :=
  ⟨high, low, value, hvalue, [], rest, rfl⟩

/-- Without an escape, everything stands for itself. -/
theorem standsFor_eq_self {bytes : List UInt8} (hbare : ¬HasEscape bytes) :
    standsFor bytes = bytes := by
  induction bytes with
  | nil => rfl
  | cons byte rest ih =>
    obtain ⟨high, low, value, tail, rfl, rfl, hvalue⟩ | hplain := standsFor_cases byte rest
    · exact absurd (hasEscape_of_digits hvalue tail) hbare
    · rw [hplain, ih fun hrest => hbare (hrest.cons byte)]

/-- Without an escape, a percent sign is kept at the end only. -/
theorem Kept.notMem_dropLast {bytes : List UInt8} (hkept : Kept bytes)
    (hbare : ¬HasEscape bytes) : 0x25 ∉ bytes.dropLast := by
  induction hkept with
  | nil | last => exact List.not_mem_nil
  | plain byte rest hbyte _ ih =>
    have hrest := ih fun hescape => hbare (hescape.cons byte)
    cases rest with
    | nil => exact List.not_mem_nil
    | cons next rest => exact List.not_mem_cons_of_ne_of_not_mem (Ne.symm hbyte) hrest
  | escape high low value rest hvalue => exact absurd (hasEscape_of_digits hvalue rest) hbare
  | doubled digit rest hdigit =>
    have hvalue := (escapeValue?_eq_low_iff 0x33 digit).mpr ⟨rfl, hdigit⟩
    exact absurd ((hasEscape_of_digits hvalue rest).cons 0x25) hbare
  | split digit rest hdigit =>
    have hvalue := (escapeValue?_eq_low_iff 0x33 digit).mpr ⟨rfl, hdigit⟩
    exact absurd (((hasEscape_of_digits hvalue rest).cons 0x33).cons 0x25) hbare

/-- Percent signs at the end are kept. -/
theorem kept_of_notMem_dropLast {bytes : List UInt8} (hend : 0x25 ∉ bytes.dropLast) :
    Kept bytes := by
  induction bytes with
  | nil => exact .nil
  | cons byte rest ih =>
    by_cases hbyte : byte = 0x25
    · subst hbyte
      cases rest with
      | nil => exact .last
      | cons next rest => exact absurd List.mem_cons_self hend
    · cases rest with
      | nil => exact .plain byte [] hbyte .nil
      | cons next rest =>
        exact .plain byte _ hbyte (ih (List.not_mem_of_not_mem_cons hend))

/-- What the reading of an escaped text has to do with what the text stands for. -/
structure Unescapes (text : String) : Prop where
  /-- As bytes, it is read as what it stands for exactly if it is kept. -/
  bytes : unescapeBytes (Utf8.encode text) = standsFor (Utf8.encode text) ↔
    Kept (Utf8.encode text)
  eq_of_kept : Kept (Utf8.encode text) → unescape text = meant text
  /-- As a text it may be so by chance as well, if malformed bytes had to be replaced. -/
  kept_of_eq : unescape text = meant text → Utf8.replacement ∉ (meant text).toList →
    Kept (Utf8.encode text)
  /-- A text without an escape stands for itself, and is kept if its percent sign is at the end. -/
  bare : ¬HasEscape (Utf8.encode text) → meant text = text ∧
    (Kept (Utf8.encode text) ↔ 0x25 ∉ (Utf8.encode text).dropLast)

/-- Exactly the texts that are kept are read as what they stand for. -/
theorem unescapes (text : String) : Unescapes text := by
  have hkept (hkept : Kept (Utf8.encode text)) : unescape text = meant text := by
    rw [unescape, meant, hkept.unescapeBytes_eq]
  refine ⟨unescapeBytes_eq_iff _, hkept, fun hsame hwhole => ?_, fun hbare => ⟨?_, ?_⟩⟩
  · have hchars : Utf8.decodeLossyChars (unescapeBytes (Utf8.encode text)) =
        Utf8.decodeLossyChars (standsFor (Utf8.encode text)) := String.ofList_injective hsame
    rw [meant, Utf8.decodeLossy, String.toList_ofList] at hwhole
    apply kept_of_unescapeBytes_eq
    rw [← Utf8.encodeChars_decodeLossyChars hwhole, ← hchars,
      Utf8.encodeChars_decodeLossyChars (hchars ▸ hwhole)]
  · rw [meant, standsFor_eq_self hbare, Utf8.encode, Utf8.decodeLossy_encodeChars,
      String.ofList_toList]
  · exact ⟨fun h => h.notMem_dropLast hbare, kept_of_notMem_dropLast⟩

/-- Of a percent sign that begins no escape, only the sign is read; the two characters after it are
lost. -/
theorem unescape_ne_meant : unescape "/a%zzb" = "/a%b" ∧ meant "/a%zzb" = "/a%zzb" := by
  decide +kernel

end Texts

end Uri

end LanguageClient
