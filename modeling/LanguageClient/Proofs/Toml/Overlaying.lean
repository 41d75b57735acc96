import LanguageClient.Proofs.Toml.Documents
import Mathlib

/-!
# Tables laid over each other

Where a table is laid over another one, what stands at a path of keys is decided on the way down.
As long as both tables have a table under the next key, the way goes on in both. Whatever else the
upper table has under it takes the place of all that is below, and where it has nothing the lower
table is left as it is.
-/

namespace LanguageClient.Toml

/-- A value that is no table stands at a proper beginning of a path, so that nothing stands at the
path itself. -/
def CutsOff (value : Toml) (path : List String) : Prop :=
  ∃ front rest found, path = front ++ rest ∧ rest ≠ [] ∧ value.at? front = some found ∧
    found.entries? = none

section Overlaying

variable {key : String} {path : List String} {value found : Toml}
  {base upper entries : List (String × Toml)}

theorem at?_nil (value : Toml) : value.at? [] = some value := by
  rw [at?]

theorem at?_table_cons (entries : List (String × Toml)) (key : String) (path : List String) :
    (table entries).at? (key :: path) = (entries.lookup key).bind (·.at? path) := by
  rw [at?]
  cases entries.lookup key <;> rfl

theorem at?_cons_of_entries? (hflat : value.entries? = none) (key : String) (path : List String) :
    value.at? (key :: path) = none := by
  cases value with
  | table => cases hflat
  | _ => rw [at?]; intro entries h; cases h

/-- Only a value that is no table lies across a path through it. -/
theorem cutsOff_cons_of_entries? (hflat : value.entries? = none) (key : String)
    (path : List String) : value.CutsOff (key :: path) :=
  ⟨[], key :: path, value, rfl, List.cons_ne_nil _ _, at?_nil value, hflat⟩

theorem not_cutsOff_nil (value : Toml) : ¬ value.CutsOff [] := by
  rintro ⟨front, rest, found, hpath, hrest, -, -⟩
  exact hrest (List.append_eq_nil_iff.mp hpath.symm).2

/-- A path through a table is cut off below its first key or not at all. -/
theorem cutsOff_table_cons : (table entries).CutsOff (key :: path) ↔
    ∃ value, entries.lookup key = some value ∧ value.CutsOff path := by
  constructor
  · rintro ⟨front, rest, found, hpath, hrest, hfound, hflat⟩
    cases front with
    | nil =>
      rw [at?_nil] at hfound
      obtain rfl := Option.some.inj hfound
      cases hflat
    | cons first front =>
      obtain ⟨rfl, rfl⟩ := List.cons.inj hpath
      rw [at?_table_cons] at hfound
      obtain ⟨value, hvalue, hfound⟩ := Option.bind_eq_some_iff.mp hfound
      exact ⟨value, hvalue, front, rest, found, rfl, hrest, hfound, hflat⟩
  · rintro ⟨value, hvalue, front, rest, found, rfl, hrest, hfound, hflat⟩
    refine ⟨key :: front, rest, found, rfl, hrest, ?_, hflat⟩
    rw [at?_table_cons, hvalue]
    exact hfound

/-- Nothing stands at a path that is cut off. -/
theorem at?_of_cutsOff (hcuts : value.CutsOff path) : value.at? path = none := by
  induction path generalizing value with
  | nil => exact absurd hcuts (not_cutsOff_nil value)
  | cons key path ih =>
    cases value with
    | table entries =>
      obtain ⟨next, hnext, hcuts⟩ := cutsOff_table_cons.mp hcuts
      rw [at?_table_cons, hnext]
      exact ih hcuts
    | _ => exact at?_cons_of_entries? rfl key path

/-- What stands under a key after a table was laid over another one. -/
theorem lookup_overlayEntries (hupper : (upper.map Prod.fst).Nodup) (base : List (String × Toml))
    (key : String) : (overlayEntries base upper).lookup key =
      match upper.lookup key with
      | some value => some (overlayValue (base.lookup key) value)
      | none => base.lookup key := by
  induction upper generalizing base with
  | nil => rw [overlayEntries]; rfl
  | cons entry rest ih =>
    obtain ⟨first, value⟩ := entry
    obtain ⟨hfresh, hrest⟩ := List.nodup_cons.mp hupper
    rw [overlayEntries, ih hrest, lookup_cons_ite, lookup_putEntry]
    by_cases hkey : key = first
    · -- the keys that follow are others, so the value that was put in stays
      subst hkey
      rw [lookup_eq_none_of_not_mem hfresh, if_pos rfl, if_pos rfl]
    · rw [if_neg hkey, if_neg hkey]

theorem overlayValue_of_entries? (hflat : value.entries? = none) (under : Option Toml) :
    overlayValue under value = value := by
  cases value with
  | table => cases hflat
  | _ => rw [overlayValue]; intro entries h; cases h

/-- A table takes the place of what is no table. -/
theorem overlayValue_of_no_table {under : Option Toml}
    (hunder : ∀ own, under ≠ some (table own)) (value : Toml) :
    overlayValue under value = value := by
  cases value with
  | table entries =>
    rw [overlayValue]
    exact hunder
  | _ => exact overlayValue_of_entries? rfl under

theorem overlayValue_none (value : Toml) : overlayValue none value = value :=
  overlayValue_of_no_table (by simp) value

/-- A table that is laid over anything leads to a table. -/
theorem exists_overlayValue_table (under : Option Toml) (entries : List (String × Toml)) :
    ∃ merged, overlayValue under (table entries) = table merged := by
  by_cases hunder : ∃ own, under = some (table own)
  · obtain ⟨own, rfl⟩ := hunder
    exact ⟨overlayEntries own entries, by rw [overlayValue]⟩
  · exact ⟨entries, overlayValue_of_no_table (fun own h => hunder ⟨own, h⟩) _⟩

/-- Below what is no table nothing stands. -/
theorem bind_at?_of_no_table {under : Option Toml} (hunder : ∀ own, under ≠ some (table own))
    (key : String) (path : List String) : under.bind (·.at? (key :: path)) = none := by
  cases under with
  | none => rfl
  | some value =>
    refine at?_cons_of_entries? ?_ key path
    cases value with
    | table own => exact absurd rfl (hunder own)
    | _ => rfl

/-- What stands at a path after a value was laid over what stood there: what the value has at the
path, laid over what was at the path before, and where it has nothing, what was there before, unless
the path is cut off. -/
theorem at?_overlayValue (honce : value.namesOnce = true) (under : Option Toml)
    (path : List String) :
    (∀ found, value.at? path = some found →
      (overlayValue under value).at? path =
        some (overlayValue (under.bind (·.at? path)) found)) ∧
    (value.at? path = none → ¬ value.CutsOff path →
      (overlayValue under value).at? path = under.bind (·.at? path)) := by
  induction path generalizing value under with
  | nil =>
    have hunder : under.bind (·.at? []) = under := by
      cases under with
      | none => rfl
      | some below => exact at?_nil below
    refine ⟨fun found hfound => ?_, fun hnone => ?_⟩
    · rw [at?_nil] at hfound
      obtain rfl := Option.some.inj hfound
      rw [at?_nil, hunder]
    · rw [at?_nil] at hnone
      cases hnone
  | cons key path ih =>
    cases hentries : value.entries? with
    | none =>
      have hnone := at?_cons_of_entries? hentries key path
      refine ⟨fun found hfound => ?_, fun _ hcuts => ?_⟩
      · rw [hnone] at hfound
        cases hfound
      · exact absurd (cutsOff_cons_of_entries? hentries key path) hcuts
    | some entries =>
      obtain rfl : value = table entries := by
        cases value with
        | table => rw [← Option.some.inj hentries]
        | _ => cases hentries
      by_cases hunder : ∃ own, under = some (table own)
      · obtain ⟨own, rfl⟩ := hunder
        have hlookup := lookup_overlayEntries (namesOnce_table.mp honce).1 own key
        simp only [overlayValue, Option.bind_some, at?_table_cons, hlookup]
        cases hnext : entries.lookup key with
        | none =>
          refine ⟨fun found hfound => ?_, fun _ _ => rfl⟩
          cases hfound
        | some next =>
          obtain ⟨hfound, hnone⟩ := ih (namesOnce_of_lookup honce hnext) (own.lookup key)
          refine ⟨hfound, fun habsent hcuts => hnone habsent fun hlater => hcuts ?_⟩
          exact cutsOff_table_cons.mpr ⟨next, hnext, hlater⟩
      · have hunder : ∀ own, under ≠ some (table own) := fun own h => hunder ⟨own, h⟩
        rw [overlayValue_of_no_table hunder, bind_at?_of_no_table hunder]
        refine ⟨fun found hfound => ?_, fun hnone _ => hnone⟩
        rw [overlayValue_none, hfound]

/-- What a cut-off path led to before is there no longer. -/
theorem at?_overlayValue_of_cutsOff (honce : value.namesOnce = true) (under : Option Toml)
    (hcuts : value.CutsOff path) : (overlayValue under value).at? path = none := by
  obtain ⟨front, rest, found, rfl, hrest, hfound, hflat⟩ := hcuts
  have hfront := (at?_overlayValue honce under front).1 found hfound
  rw [overlayValue_of_entries? hflat] at hfront
  exact at?_of_cutsOff ⟨front, rest, found, rfl, hrest, hfront, hflat⟩

end Overlaying

section Again

variable {base upper : List (String × Toml)} {value : Toml}

/-- Putting in what is there already changes nothing. -/
theorem putEntry_of_lookup {key : String} (hlookup : base.lookup key = some value) :
    putEntry key value base = base := by
  induction base with
  | nil => cases hlookup
  | cons entry rest ih =>
    obtain ⟨first, old⟩ := entry
    rw [lookup_cons_ite] at hlookup
    rw [putEntry]
    split at hlookup
    · rename_i hfirst
      rw [if_pos hfirst.symm, hfirst, Option.some.inj hlookup]
    · rename_i hfirst
      rw [if_neg (Ne.symm hfirst), ih hlookup]

/-- Entries that are there already, and take nothing from what is laid over them, stay. -/
theorem overlayEntries_of_fixed (hfixed : ∀ entry ∈ upper, ∃ value,
    base.lookup entry.1 = some value ∧ overlayValue (some value) entry.2 = value) :
    overlayEntries base upper = base := by
  induction upper with
  | nil => rw [overlayEntries]
  | cons entry rest ih =>
    obtain ⟨key, above⟩ := entry
    obtain ⟨⟨value, hlookup, hvalue⟩, hrest⟩ := List.forall_mem_cons.mp hfixed
    rw [overlayEntries, hlookup, hvalue, putEntry_of_lookup hlookup, ih hrest]

mutual

/-- A value that was laid over another one changes nothing when it is laid over the result. -/
theorem overlayValue_again : ∀ {value : Toml}, value.namesOnce = true → ∀ under : Option Toml,
    overlayValue (some (overlayValue under value)) value = overlayValue under value
  | .table upper, honce, under => by
    obtain ⟨hnodup, hvalues⟩ := namesOnce_table.mp honce
    have hagain := overlayEntries_again hvalues
    by_cases hunder : ∃ own, under = some (table own)
    · obtain ⟨own, rfl⟩ := hunder
      have hfixed : overlayEntries (overlayEntries own upper) upper = overlayEntries own upper := by
        refine overlayEntries_of_fixed fun entry hentry => ?_
        refine ⟨overlayValue (own.lookup entry.1) entry.2, ?_, hagain entry hentry _⟩
        rw [lookup_overlayEntries hnodup, lookup_of_mem hnodup hentry]
      simp only [overlayValue, hfixed]
    · have hfixed : overlayEntries upper upper = upper := by
        refine overlayEntries_of_fixed fun entry hentry => ?_
        refine ⟨entry.2, lookup_of_mem hnodup hentry, ?_⟩
        have hsame := hagain entry hentry none
        rwa [overlayValue_none] at hsame
      rw [overlayValue_of_no_table fun own h => hunder ⟨own, h⟩, overlayValue, hfixed]
  | .text _, _, _ | .integer _, _, _ | .decimal _ _, _, _ | .nonFinite, _, _ | .truth _, _, _
  | .moment _, _, _ | .array _, _, _ => by
    rw [overlayValue_of_entries? rfl, overlayValue_of_entries? rfl]

/-- The same for each value of a table. -/
theorem overlayEntries_again : ∀ {entries : List (String × Toml)},
    entriesNameOnce entries = true → ∀ entry ∈ entries, ∀ under : Option Toml,
      overlayValue (some (overlayValue under entry.2)) entry.2 = overlayValue under entry.2
  | [], _, _, hentry, _ => by cases hentry
  | (key, value) :: rest, honce, entry, hentry, under => by
    rw [entriesNameOnce, Bool.and_eq_true] at honce
    rcases List.mem_cons.mp hentry with rfl | hlater
    · exact overlayValue_again honce.1 under
    · exact overlayEntries_again honce.2 entry hlater under

end

mutual

/-- What names its keys once does so after it was laid over what does. -/
theorem namesOnce_overlayValue : ∀ {value : Toml}, value.namesOnce = true →
    ∀ {under : Option Toml}, (∀ below, under = some below → below.namesOnce = true) →
      (overlayValue under value).namesOnce = true
  | .table upper, honce, under, hunder => by
    by_cases htable : ∃ own, under = some (table own)
    · obtain ⟨own, rfl⟩ := htable
      rw [overlayValue]
      exact namesOnce_overlayEntries (namesOnce_table.mp honce).2 (hunder _ rfl)
    · rwa [overlayValue_of_no_table fun own h => htable ⟨own, h⟩]
  | .text _, honce, _, _ | .integer _, honce, _, _ | .decimal _ _, honce, _, _
  | .nonFinite, honce, _, _ | .truth _, honce, _, _ | .moment _, honce, _, _
  | .array _, honce, _, _ => by rwa [overlayValue_of_entries? rfl]

/-- So do the entries of a table. -/
theorem namesOnce_overlayEntries : ∀ {upper base : List (String × Toml)},
    entriesNameOnce upper = true → (table base).namesOnce = true →
      (table (overlayEntries base upper)).namesOnce = true
  | [], base, _, hbase => by rwa [overlayEntries]
  | (key, value) :: rest, base, honce, hbase => by
    rw [entriesNameOnce, Bool.and_eq_true] at honce
    rw [overlayEntries]
    refine namesOnce_overlayEntries honce.2 (namesOnce_putEntry hbase ?_)
    exact namesOnce_overlayValue honce.1 fun below hbelow => namesOnce_of_lookup hbase hbelow

end

end Again

/-- What stands at a path of keys in a table, in another one, and in what comes of laying the second
one over the first one. -/
structure Overlays (base upper merged : Toml) (path : List String) : Prop where
  /-- A value of the upper table that is no table takes its place. -/
  takes : ∀ value, upper.at? path = some value → value.entries? = none →
    merged.at? path = some value
  /-- Where the upper table has a table, there is one. -/
  meets : ∀ entries, upper.at? path = some (table entries) →
    ∃ both, merged.at? path = some (table both)
  /-- It is the upper one's own where the base has none. -/
  replaces : ∀ entries, upper.at? path = some (table entries) →
    (∀ own, base.at? path ≠ some (table own)) → merged.at? path = some (table entries)
  keeps : upper.at? path = none → ¬ upper.CutsOff path → merged.at? path = base.at? path
  cuts : upper.CutsOff path → merged.at? path = none

theorem overlays_overlay (base : Toml) {upper : Toml} (hupper : upper.namesOnce = true)
    (path : List String) : Overlays base upper (overlay base upper) path := by
  obtain ⟨hfound, hnone⟩ := at?_overlayValue hupper (some base) path
  rw [Option.bind_some] at hfound hnone
  constructor
  · intro value hvalue hflat
    rw [overlay, hfound value hvalue, overlayValue_of_entries? hflat]
  · intro entries hentries
    obtain ⟨both, hboth⟩ := exists_overlayValue_table (base.at? path) entries
    exact ⟨both, by rw [overlay, hfound _ hentries, hboth]⟩
  · intro entries hentries hown
    rw [overlay, hfound _ hentries, overlayValue_of_no_table hown]
  · exact hnone
  · exact at?_overlayValue_of_cutsOff hupper (some base)

/-- For all tables that name each key once, laying the second one over the first one leads to such a
table again, and at every path of keys it has what the two tables say. An empty table that is laid
over the first one changes nothing, nor does the first one itself, nor does the second one when it
is laid over the result again. -/
theorem overlays_all (base upper : List (String × Toml)) (hbase : (table base).namesOnce = true)
    (hupper : (table upper).namesOnce = true) :
    (∃ merged, overlay (table base) (table upper) = table merged ∧
      (table merged).namesOnce = true ∧
      ∀ path, Overlays (table base) (table upper) (table merged) path) ∧
    overlay (table base) (table []) = table base ∧
    overlay (table base) (table base) = table base ∧
    overlay (overlay (table base) (table upper)) (table upper) =
      overlay (table base) (table upper) := by
  refine ⟨⟨overlayEntries base upper, ?_, ?_, fun path => ?_⟩, ?_, ?_, ?_⟩
  · rw [overlay, overlayValue]
  · exact namesOnce_overlayEntries (namesOnce_table.mp hupper).2 hbase
  · have hoverlays := overlays_overlay (table base) hupper path
    rwa [overlay, overlayValue] at hoverlays
  · rw [overlay, overlayValue, overlayEntries]
  · have hagain := overlayValue_again hbase none
    rwa [overlayValue_none] at hagain
  · exact overlayValue_again hupper _

/-- Settings of a user and of a project that do not agree on what is a table. -/
def conflictingFiles : FileTree :=
  ⟨["w"], [], [([], .folder), (["w"], .folder),
    (["w", "user"], .file [97, 46, 98, 61, 49, 10, 97, 46, 99, 61, 50, 10, 116, 46, 120, 61, 49]),
    (["w", "project"], .file [97, 46, 98, 46, 100, 61, 49, 10, 116, 61, 53])]⟩

theorem readDocument_conflictingFiles_user :
    Settings.readDocument conflictingFiles "/w/user" = .ok (table
      [("a", table [("b", .integer 1), ("c", .integer 2)]), ("t", table [("x", .integer 1)])]) := by
  have hpresent : conflictingFiles.isPresent "/w/user" = true := by decide +kernel
  have htext : conflictingFiles.readText "/w/user" = .ok "a.b=1\na.c=2\nt.x=1" := by
    decide +kernel
  have hparse : parse? "a.b=1\na.c=2\nt.x=1" = some (table
      [("a", table [("b", .integer 1), ("c", .integer 2)]), ("t", table [("x", .integer 1)])]) := by
    cbv
  refine readDocument_of_parse? hpresent htext hparse ?_
  simp [documentWithMoments?, entriesWithMoments?, withMoments?, momentKey]

theorem readDocument_conflictingFiles_project :
    Settings.readDocument conflictingFiles "/w/project" = .ok (table
      [("a", table [("b", table [("d", .integer 1)])]), ("t", .integer 5)]) := by
  have hpresent : conflictingFiles.isPresent "/w/project" = true := by decide +kernel
  have htext : conflictingFiles.readText "/w/project" = .ok "a.b.d=1\nt=5" := by decide +kernel
  have hparse : parse? "a.b.d=1\nt=5" = some (table
      [("a", table [("b", table [("d", .integer 1)])]), ("t", .integer 5)]) := by cbv
  refine readDocument_of_parse? hpresent htext hparse ?_
  simp [documentWithMoments?, entriesWithMoments?, withMoments?, momentKey]

/-- The table of the project takes the place of a number, its number that of a table, and what it
does not mention stays. -/
theorem overlays_of_conflictingFiles :
    ∃ base upper, Settings.readDocument conflictingFiles "/w/user" = .ok (table base) ∧
      Settings.readDocument conflictingFiles "/w/project" = .ok (table upper) ∧
      ∃ merged, overlay (table base) (table upper) = table merged ∧
        (table merged).at? ["a", "b"] = some (table [("d", .integer 1)]) ∧
        (table merged).at? ["a", "c"] = some (.integer 2) ∧
        (table merged).at? ["t"] = some (.integer 5) ∧
        (table merged).at? ["t", "x"] = none := by
  have huser := readDocument_conflictingFiles_user
  have hproject := readDocument_conflictingFiles_project
  obtain ⟨-, ⟨⟩, hbase⟩ := namesOnce_readDocument huser
  obtain ⟨-, ⟨⟩, hupper⟩ := namesOnce_readDocument hproject
  obtain ⟨⟨merged, hmerged, -, hpaths⟩, -⟩ := overlays_all _ _ hbase hupper
  refine ⟨_, _, huser, hproject, merged, hmerged, ?_, ?_, ?_, ?_⟩
  · exact (hpaths ["a", "b"]).replaces _ rfl fun own h => by cases h
  · refine (hpaths ["a", "c"]).keeps rfl fun hcuts => ?_
    obtain ⟨below, hbelow, hcuts⟩ := cutsOff_table_cons.mp hcuts
    obtain rfl := Option.some.inj hbelow
    obtain ⟨below, hbelow, -⟩ := cutsOff_table_cons.mp hcuts
    cases hbelow
  · exact (hpaths ["t"]).takes _ rfl rfl
  · exact (hpaths ["t", "x"]).cuts ⟨["t"], ["x"], .integer 5, rfl, by simp, rfl, rfl⟩

end LanguageClient.Toml
