import LanguageClient.Proofs.Workspace.Growing
import LanguageClient.Proofs.Workspace.Lookup
import Mathlib.Data.List.TakeWhile

/-!
# Paths and their addresses

The address of an absolute path is made of a few plain characters and of escaped bytes, so that
neither the query nor the fragment of an address can begin in it. Both ways of reading an address
give the path back, save that backslashes have become slashes, and the address of that path is the
same one. A document that was opened is therefore found under its own address, for as long as the
workspace has it there.
-/

namespace LanguageClient

namespace Uri

section Shape

/-- The characters that stand for themselves in the path of an address. -/
def plainChars : List Char :=
  "ABCDEFGHIJKLMNOPQRSTUVWXYZabcdefghijklmnopqrstuvwxyz0123456789/.-_~:".toList

/-- The digits of escaped bytes. -/
def escapeDigits : List Char :=
  "0123456789ABCDEF".toList

/-- Nothing but plain characters and escaped bytes. -/
inductive IsEscaped : List Char → Prop
  | nil : IsEscaped []
  | plain (c : Char) (rest : List Char) (hplain : c ∈ plainChars) (hrest : IsEscaped rest) :
      IsEscaped (c :: rest)
  | escape (high low : Char) (rest : List Char) (hhigh : high ∈ escapeDigits)
      (hlow : low ∈ escapeDigits) (hrest : IsEscaped rest) :
      IsEscaped ('%' :: high :: low :: rest)

theorem mem_plainChars_of_isPlain {c : Char} (hplain : isPlain c = true) : c ∈ plainChars := by
  have hall : ∀ n < 128, isPlain (Char.ofNat n) = true → Char.ofNat n ∈ plainChars := by
    decide +kernel
  have hc := hall c.toNat (Nat.lt_succ_of_le (val_le_of_isPlain hplain))
  rw [Char.ofNat_toNat] at hc
  exact hc hplain

theorem upperHexDigit_mem_escapeDigits {n : Nat} (hn : n < 16) :
    upperHexDigit n ∈ escapeDigits := by
  have hall : ∀ n < 16, upperHexDigit n ∈ escapeDigits := by decide
  exact hall n hn

/-- Escaped bytes may stand in front of whatever is escaped. -/
theorem IsEscaped.escapeBytes (bytes : List UInt8) {rest : List Char} (hrest : IsEscaped rest) :
    IsEscaped (bytes.flatMap escapeByte ++ rest) := by
  induction bytes with
  | nil => exact hrest
  | cons byte bytes ih =>
    have hbyte : byte.toNat < 256 := byte.toNat_lt
    exact .escape _ _ _ (upperHexDigit_mem_escapeDigits (by omega))
      (upperHexDigit_mem_escapeDigits (by omega)) ih

theorem isEscaped_flatMap_escapeChar (chars : List Char) :
    IsEscaped (chars.flatMap escapeChar) := by
  induction chars with
  | nil => exact .nil
  | cons c rest ih =>
    rw [List.flatMap_cons, escapeChar]
    split
    · rename_i hplain
      exact .plain c _ (mem_plainChars_of_isPlain hplain) ih
    · exact ih.escapeBytes _

/-- No query and no fragment begins in what is escaped. -/
theorem IsEscaped.ne_mark {chars : List Char} (hescaped : IsEscaped chars) :
    ∀ c ∈ chars, (c != '?' && c != '#') = true := by
  have hplainChars : plainChars.all (fun c => c != '?' && c != '#') = true := by decide +kernel
  have hescapeDigits : escapeDigits.all (fun c => c != '?' && c != '#') = true := by
    decide +kernel
  rw [List.all_eq_true] at hplainChars hescapeDigits
  induction hescaped with
  | nil => exact List.forall_mem_nil _
  | plain c rest hplain _ ih => exact List.forall_mem_cons.mpr ⟨hplainChars c hplain, ih⟩
  | escape high low rest hhigh hlow _ ih =>
    refine List.forall_mem_cons.mpr ⟨rfl, ?_⟩
    refine List.forall_mem_cons.mpr ⟨hescapeDigits high hhigh, ?_⟩
    exact List.forall_mem_cons.mpr ⟨hescapeDigits low hlow, ih⟩

end Shape

/-- The address of a path is well formed, and both ways of reading it give back the path. -/
structure RoundTrips (folder path : String) : Prop where
  escaped : ∃ rest, ofPath folder path = String.ofList ("file://".toList ++ rest) ∧ IsEscaped rest
  toPath_eq : toPath (ofPath folder path) = String.ofList (slashed path.toList)
  split_eq : split (ofPath folder path) = ("file", String.ofList (slashed path.toList))
  ofPath_eq : ∀ other, ofPath other (toPath (ofPath folder path)) = ofPath folder path

theorem exists_cons_of_isAbsolute {path : String} (habsolute : Path.isAbsolute path = true) :
    ∃ chars, path = String.ofList ('/' :: chars) := by
  obtain ⟨chars, hchars⟩ := List.head?_eq_some_iff.mp (beq_iff_eq.mp habsolute)
  exact ⟨chars, by rw [← hchars, String.ofList_toList]⟩

/-- The address of a file is split into the scheme of files and the path. -/
theorem split_ofPath_cons (folder : String) (chars : List Char) :
    split (ofPath folder (String.ofList ('/' :: chars))) =
      ("file", String.ofList (slashed ('/' :: chars))) := by
  have hscheme (rest : List Char) :
      splitScheme (fileScheme.toList ++ rest) = ("file".toList, '/' :: '/' :: rest) := rfl
  have hauthority (rest : List Char) :
      dropAuthority ('/' :: '/' :: '/' :: rest) = '/' :: rest := rfl
  have hhead : (slashed ('/' :: chars)).flatMap escapeChar =
      '/' :: (slashed chars).flatMap escapeChar := rfl
  have hmarks := (isEscaped_flatMap_escapeChar (slashed ('/' :: chars))).ne_mark
  rw [ofPath_cons, split, String.toList_ofList, hscheme]
  dsimp only
  rw [hhead, hauthority, ← hhead, List.takeWhile_eq_self_iff.mpr hmarks,
    unescape_flatMap_escapeChar]
  rfl

theorem roundTrips_of_isAbsolute (folder : String) {path : String}
    (habsolute : Path.isAbsolute path = true) : RoundTrips folder path := by
  obtain ⟨chars, rfl⟩ := exists_cons_of_isAbsolute habsolute
  constructor
  · exact ⟨_, ofPath_cons folder chars, isEscaped_flatMap_escapeChar _⟩
  · rw [toPath_ofPath_cons, String.toList_ofList]
  · rw [split_ofPath_cons, String.toList_ofList]
  · intro other
    have hslashed : slashed ('/' :: chars) = '/' :: slashed chars := rfl
    rw [toPath_ofPath_cons, hslashed, ofPath_cons, ofPath_cons, ← hslashed, slashed_slashed]

end Uri

namespace Session

/-- A document has this address, which leads to itself, and as long as the workspace has the
document there, it is what opening the address comes to. -/
structure FoundBy (session : Session) (id : Nat) (uri : String) : Prop where
  uri_eq : (session.documents[id]?).map TextDocument.uri = some uri
  addressOf_eq : session.addressOf uri = some uri
  opens : session.openAt? uri = some id → ∀ language, ∃ after,
    session.openDocument uri language = .ok (id, after)

variable {session : Session}

/-- An absolute path is opened at its address. -/
theorem addressOf_of_isAbsolute (htidy : Tidy session) (folder : String) {path : String}
    (habsolute : Path.isAbsolute path = true) :
    session.addressOf path = some (Uri.ofPath folder path) := by
  obtain ⟨workspace, hworkspace⟩ := Option.isSome_iff_exists.mp htidy.here
  obtain ⟨chars, rfl⟩ := Uri.exists_cons_of_isAbsolute habsolute
  have hfile : Uri.isFile (String.ofList ('/' :: chars)) = false := by
    rw [Uri.isFile, String.toList_ofList]
    rfl
  have hresolve : workspace.resolve (String.ofList ('/' :: chars)) =
      String.ofList ('/' :: chars) := by
    simp only [Workspace.resolve, hfile, habsolute, if_true, Bool.false_eq_true, if_false]
  rw [addressOf, hworkspace, Option.map_some, hresolve, Uri.ofPath_cons, Uri.ofPath_cons]

/-- In a tidy workspace, a document whose address leads to itself is found by it. -/
theorem foundBy_of_addressOf (htidy : Tidy session) {id : Nat} {uri : String}
    (huri : (session.documents[id]?).map TextDocument.uri = some uri)
    (haddress : session.addressOf uri = some uri) : session.FoundBy id uri where
  uri_eq := huri
  addressOf_eq := haddress
  opens hopen language := by
    obtain ⟨workspace, address, -, hsame, ⟨n, document, hplace, -, hopened⟩ | ⟨hnone, -⟩⟩ :=
      openDocument_eq htidy uri language
    · obtain rfl := Option.some.inj (haddress.symm.trans hsame)
      obtain rfl := Option.some.inj (hopen.symm.trans hplace)
      exact ⟨_, hopened⟩
    · obtain rfl := Option.some.inj (haddress.symm.trans hsame)
      rw [hopen] at hnone
      cases hnone

/-- In a session, an absolute path leads to its address, and so does this address. -/
theorem addressOf_ofPath (htidy : Tidy session) (folder : String) {path : String}
    (habsolute : Path.isAbsolute path = true) :
    session.addressOf (Uri.ofPath folder path) = some (Uri.ofPath folder path) :=
  addressOf_addressOf (addressOf_of_isAbsolute htidy folder habsolute)

end Session

/-- Every absolute path comes back from its address. In every run this is where the path leads, and
a document that is opened by any target that leads there is stored under the address and is found by
it from then on. -/
theorem addressed_run (folder : String) {path : String} (habsolute : Path.isAbsolute path = true) :
    Uri.RoundTrips folder path ∧
    ∀ (files : FileTree) (clients : List Client) (root : String) (encoding : PositionEncoding)
      (before : List Operation),
      let desk := (Desk.begin files clients root encoding).performAll before
      desk.session.addressOf path = some (Uri.ofPath folder path) ∧
      ∀ (target : String) (language : Option String) (id : Nat) (opened : Session),
        desk.session.addressOf target = some (Uri.ofPath folder path) →
        desk.session.openDocument target language = .ok (id, opened) →
          opened.openAt? (Uri.ofPath folder path) = some id ∧ ∀ more : List Operation,
            ((desk.perform (.openDocument target language)).performAll more).session.FoundBy id
              (Uri.ofPath folder path) := by
  refine ⟨Uri.roundTrips_of_isAbsolute folder habsolute, ?_⟩
  intro files clients root encoding before desk
  have htidy : Tidy desk.session :=
    Desk.tidy_run (Desk.tidy_begin files clients root encoding) before
  refine ⟨Session.addressOf_of_isAbsolute htidy folder habsolute, ?_⟩
  intro target language id opened haddress hopened
  obtain ⟨hcontinues, hplace⟩ := Session.openDocument_ok htidy hopened
  rw [Session.placeOf, hcontinues.addressOf_eq, haddress, Option.bind_some] at hplace
  refine ⟨hplace, fun more => ?_⟩
  have hnext : Tidy (desk.perform (.openDocument target language)).session :=
    Desk.tidy_run htidy [.openDocument target language]
  have hlast := Desk.tidy_run hnext more
  have hgrows := Desk.grows_run hnext more
  have hperform : (desk.perform (.openDocument target language)).session = opened := by
    rw [Desk.perform, hopened]
    rfl
  rw [hperform] at hnext hgrows
  obtain ⟨document, hdocument, -, huri⟩ := hnext.live_of_openAt? hplace
  obtain ⟨later, hlater, hbecomes⟩ := hgrows id document hdocument
  refine Session.foundBy_of_addressOf hlast ?_ (Session.addressOf_ofPath hlast folder habsolute)
  rw [hlater, Option.map_some, hbecomes.uri, huri]

section Marks

/-- A path with a blank, a percent sign before two digits, and the marks of query and fragment. -/
def markedPath : String := "/w/a %41?é#"

/-- A workspace in which the file at this path was not opened yet. -/
def markedDesk : Desk :=
  Desk.begin ⟨["w"], [], [([], .folder), (["w"], .folder), (["w", "a %41?é#"], .file [0x78])]⟩
    [] "/w" .utf16

/-- The file is opened by its path, and then found by its address. -/
theorem addressed_of_marks :
    Path.isAbsolute markedPath = true ∧ Uri.RoundTrips "/" markedPath ∧
    Uri.ofPath "/" markedPath = "file:///w/a%20%2541%3F%C3%A9%23" ∧
    (markedDesk.perform (.openDocument markedPath none)).session.FoundBy 0
      "file:///w/a%20%2541%3F%C3%A9%23" := by
  have habsolute : Path.isAbsolute markedPath = true := by decide
  have haddress : Uri.ofPath "/" markedPath = "file:///w/a%20%2541%3F%C3%A9%23" := by
    decide +kernel
  have hplace : (markedDesk.session.openDocument markedPath none).toOption.map Prod.fst =
      some 0 := by decide +kernel
  obtain ⟨htrips, hruns⟩ := addressed_run "/" habsolute
  obtain ⟨hleads, hstored⟩ := hruns _ [] "/w" .utf16 []
  refine ⟨habsolute, htrips, haddress, ?_⟩
  cases hopened : markedDesk.session.openDocument markedPath none with
  | error error =>
    rw [hopened] at hplace
    cases hplace
  | ok result =>
    obtain ⟨id, opened⟩ := result
    rw [hopened] at hplace
    obtain rfl : id = 0 := Option.some.inj hplace
    rw [← haddress]
    exact (hstored markedPath none 0 opened hleads hopened).2 []

end Marks

end LanguageClient
