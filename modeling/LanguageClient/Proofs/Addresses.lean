import LanguageClient.Proofs.Text.Reading
import LanguageClient.Workspace.Documents

/-!
# Addresses of files

The address of a file is read as the path for which it was written, save that backslashes have
become slashes. Writing the address of that path gives the same address again, whichever folders
paths are read from: an address that was written once leads to itself.
-/

namespace LanguageClient.Uri

/-- The path in which backslashes have become slashes. -/
def slashed (path : List Char) : List Char :=
  path.map fun c => if c == '\\' then '/' else c

theorem escapePath_eq (path : List Char) : escapePath path = (slashed path).flatMap escapeChar :=
  rfl

theorem slashed_slashed (path : List Char) : slashed (slashed path) = slashed path := by
  rw [slashed, slashed, List.map_map]
  refine List.map_congr_left fun c _ => ?_
  by_cases hc : c = '\\' <;> simp [hc]

section Bytes

/-- A hexadecimal digit is one byte, which has its value. -/
theorem upperHexDigit_spec {n : Nat} (hn : n < 16) :
    String.utf8EncodeChar (upperHexDigit n) = [(upperHexDigit n).toUInt8] ∧
      hexValue? (upperHexDigit n).toUInt8 = some (UInt8.ofNat n) := by
  have hall : ∀ n < 16, String.utf8EncodeChar (upperHexDigit n) = [(upperHexDigit n).toUInt8] ∧
      hexValue? (upperHexDigit n).toUInt8 = some (UInt8.ofNat n) := by
    decide
  exact hall n hn

/-- An escaped byte is read as that byte. -/
theorem unescapeBytes_escapeByte (byte : UInt8) (rest : List UInt8) :
    unescapeBytes (Utf8.encodeChars (escapeByte byte) ++ rest) = byte :: unescapeBytes rest := by
  have hbyte : byte.toNat < 256 := byte.toNat_lt
  obtain ⟨hhigh_bytes, hhigh⟩ := upperHexDigit_spec (n := byte.toNat / 16) (by omega)
  obtain ⟨hlow_bytes, hlow⟩ := upperHexDigit_spec (n := byte.toNat % 16) (by omega)
  have hvalue : UInt8.ofNat (byte.toNat / 16) * 16 + UInt8.ofNat (byte.toNat % 16) = byte := by
    apply UInt8.toNat.inj
    simp
    omega
  have hencode : Utf8.encodeChars (escapeByte byte) = [0x25,
      (upperHexDigit (byte.toNat / 16)).toUInt8, (upperHexDigit (byte.toNat % 16)).toUInt8] := by
    simp only [Utf8.encodeChars, escapeByte, List.flatMap_cons, List.flatMap_nil, hhigh_bytes,
      hlow_bytes]
    rfl
  rw [hencode, List.cons_append, List.cons_append, List.cons_append, List.nil_append,
    unescapeBytes]
  simp [escapedByte?, hhigh, hlow, hvalue]

/-- Escaped bytes are read as these bytes. -/
theorem unescapeBytes_escapeBytes (bytes rest : List UInt8) :
    unescapeBytes (Utf8.encodeChars (bytes.flatMap escapeByte) ++ rest) =
      bytes ++ unescapeBytes rest := by
  induction bytes with
  | nil => rfl
  | cons byte bytes ih =>
    rw [List.flatMap_cons, Utf8.encodeChars_append, List.append_assoc, unescapeBytes_escapeByte, ih,
      List.cons_append]

/-- A plain character takes one byte. -/
theorem val_le_of_isPlain {c : Char} (hplain : isPlain c = true) : c.val.toNat ≤ 0x7F := by
  rw [isPlain] at hplain
  delta Char.isAlphanum Char.isAlpha Char.isUpper Char.isLower Char.isDigit at hplain
  simp only [Bool.or_eq_true, Bool.and_eq_true, decide_eq_true_eq, beq_iff_eq, ge_iff_le,
    UInt32.le_iff_toNat_le] at hplain
  rcases hplain with (((((((⟨-, h⟩ | ⟨-, h⟩) | ⟨-, h⟩) | rfl) | rfl) | rfl) | rfl) | rfl) | rfl
  · exact Nat.le_trans h (by decide)
  · exact Nat.le_trans h (by decide)
  · exact Nat.le_trans h (by decide)
  all_goals decide

/-- A plain character is one byte, which begins no escape. -/
theorem utf8EncodeChar_of_isPlain {c : Char} (hplain : isPlain c = true) :
    ∃ byte, String.utf8EncodeChar c = [byte] ∧ byte ≠ 0x25 := by
  have hsmall := val_le_of_isPlain hplain
  have hbytes : String.utf8EncodeChar c = [UInt8.ofNat c.val.toNat] := by
    unfold String.utf8EncodeChar
    dsimp only
    rw [if_pos hsmall]
  refine ⟨_, hbytes, fun hbyte => ?_⟩
  have hmem : (0x25 : UInt8) ∈ String.utf8EncodeChar c := by
    rw [hbytes, hbyte]
    exact List.mem_singleton_self _
  have hcode := Utf8.eq_of_mem_utf8EncodeChar (by decide) hmem
  obtain rfl : c = '%' := Char.toNat_inj.mp hcode
  exact absurd hplain (by decide)

/-- A byte that begins no escape stands for itself. -/
theorem unescapeBytes_cons {byte : UInt8} (hbyte : byte ≠ 0x25) (rest : List UInt8) :
    unescapeBytes (byte :: rest) = byte :: unescapeBytes rest := by
  rw [unescapeBytes] <;> simp [hbyte]

/-- What stands for a character is read as that character. -/
theorem unescapeBytes_escapeChar (c : Char) (rest : List UInt8) :
    unescapeBytes (Utf8.encodeChars (escapeChar c) ++ rest) =
      String.utf8EncodeChar c ++ unescapeBytes rest := by
  unfold escapeChar
  split
  · rename_i hplain
    obtain ⟨byte, hbytes, hbyte⟩ := utf8EncodeChar_of_isPlain hplain
    rw [Utf8.encodeChars, List.flatMap_singleton, hbytes, List.singleton_append,
      unescapeBytes_cons hbyte, List.singleton_append]
  · exact unescapeBytes_escapeBytes _ rest

/-- What stands for a text is read as that text. -/
theorem unescape_flatMap_escapeChar (chars : List Char) :
    unescape (String.ofList (chars.flatMap escapeChar)) = String.ofList chars := by
  have hbytes : unescapeBytes (Utf8.encodeChars (chars.flatMap escapeChar)) =
      Utf8.encodeChars chars := by
    induction chars with
    | nil => rfl
    | cons c rest ih =>
      rw [List.flatMap_cons, Utf8.encodeChars_append, unescapeBytes_escapeChar, ih,
        Utf8.encodeChars, Utf8.encodeChars, List.flatMap_cons]
  rw [unescape, Utf8.encode, String.toList_ofList, hbytes, Utf8.decodeLossy_encodeChars]

end Bytes

section Paths

theorem isAbsolute_cons (chars : List Char) :
    Path.isAbsolute (String.ofList ('/' :: chars)) = true := by
  rw [Path.isAbsolute, String.toList_ofList]
  rfl

/-- The address of a path that begins at the root. -/
theorem ofPath_cons (folder : String) (chars : List Char) :
    ofPath folder (String.ofList ('/' :: chars)) =
      String.ofList (fileScheme.toList ++ (slashed ('/' :: chars)).flatMap escapeChar) := by
  rw [ofPath, isAbsolute_cons, if_pos rfl, String.toList_ofList, escapePath_eq]
  rfl

/-- Only a slash is written with a slash in front. -/
theorem eq_slash_of_head {c : Char} {rest : List Char}
    (hhead : (escapeChar c ++ rest).head? = some '/') : c = '/' := by
  unfold escapeChar at hhead
  split at hhead
  · exact Option.some.inj hhead
  · have hlength := String.length_utf8EncodeChar c
    cases hbytes : String.utf8EncodeChar c with
    | nil =>
      rw [hbytes] at hlength
      exact absurd hlength.symm (Nat.ne_of_gt c.utf8Size_pos)
    | cons byte bytes =>
      rw [hbytes] at hhead
      exact absurd (Option.some.inj hhead) (by decide)

/-- Every address of a file is that of a path which begins at the root. -/
theorem exists_ofPath_eq (folder path : String) : ∃ chars, ∀ other,
    ofPath folder path = ofPath other (String.ofList ('/' :: chars)) := by
  simp only [ofPath_cons]
  rw [ofPath]
  generalize (if Path.isAbsolute path then path else Path.join folder path).toList = chars
  rw [escapePath_eq]
  split
  · rename_i hhead
    replace hhead := beq_iff_eq.mp hhead
    cases hchars : slashed chars with
    | nil =>
      rw [hchars] at hhead
      cases hhead
    | cons c rest =>
      rw [hchars, List.flatMap_cons] at hhead
      obtain rfl := eq_slash_of_head hhead
      refine ⟨rest, fun _ => ?_⟩
      rw [← hchars, slashed_slashed]
      rfl
  · refine ⟨chars, fun _ => ?_⟩
    rfl

/-- The address of a file is read as its path. -/
theorem toPath_ofPath_cons (folder : String) (chars : List Char) :
    toPath (ofPath folder (String.ofList ('/' :: chars))) =
      String.ofList (slashed ('/' :: chars)) := by
  rw [ofPath_cons, toPath, String.toList_ofList, dropLeading?, if_pos (by simp), List.drop_left]
  exact unescape_flatMap_escapeChar _

/-- An address that was written once leads to itself. -/
theorem ofPath_resolve_ofPath (workspace : Workspace) (folder other path : String) :
    ofPath other (workspace.resolve (ofPath folder path)) = ofPath folder path := by
  obtain ⟨chars, hpath⟩ := exists_ofPath_eq folder path
  have hfile : isFile (ofPath folder path) = true := by
    rw [hpath folder, ofPath_cons, isFile, String.toList_ofList]
    simp
  have hslashed : slashed ('/' :: chars) = '/' :: slashed chars := rfl
  have hresolve : workspace.resolve (ofPath folder path) =
      String.ofList ('/' :: slashed chars) := by
    rw [Workspace.resolve, if_pos hfile, hpath folder, toPath_ofPath_cons, hslashed,
      isAbsolute_cons, if_pos rfl]
  rw [hresolve, hpath other, ofPath_cons, ofPath_cons, ← hslashed, slashed_slashed]

end Paths

end LanguageClient.Uri
