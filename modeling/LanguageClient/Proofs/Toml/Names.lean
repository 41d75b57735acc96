import LanguageClient.Proofs.Fields
import LanguageClient.Toml.Draft

/-!
# Keys of tables

A table names each of its keys once, and putting an entry into it keeps that so. Whatever the lines
of a document do to the tables under construction is made of such steps: a header opens a table that
is new or was only implied, and an entry is added under a key that is not yet in use.
-/

namespace LanguageClient.Toml

mutual

/-- Whether every table of a value names each of its keys once. -/
def namesOnce : Toml → Bool
  | .array items => itemsNameOnce items
  | .table entries => decide (entries.map Prod.fst).Nodup && entriesNameOnce entries
  | _ => true

/-- Whether the tables of all items do. -/
def itemsNameOnce : List Toml → Bool
  | [] => true
  | item :: rest => namesOnce item && itemsNameOnce rest

/-- Whether the tables of all values do. -/
def entriesNameOnce : List (String × Toml) → Bool
  | [] => true
  | (_, value) :: rest => namesOnce value && entriesNameOnce rest

end

section Entries

variable {key : String} {value : Toml} {entries : List (String × Toml)}

theorem namesOnce_table : (table entries).namesOnce = true ↔
    (entries.map Prod.fst).Nodup ∧ entriesNameOnce entries = true := by
  rw [namesOnce, Bool.and_eq_true, decide_eq_true_eq]

theorem entriesNameOnce_iff :
    entriesNameOnce entries = true ↔ ∀ entry ∈ entries, entry.2.namesOnce = true := by
  induction entries with
  | nil => simp [entriesNameOnce]
  | cons first rest ih => rw [entriesNameOnce, Bool.and_eq_true, ih, List.forall_mem_cons]

theorem itemsNameOnce_iff {items : List Toml} :
    itemsNameOnce items = true ↔ ∀ item ∈ items, item.namesOnce = true := by
  induction items with
  | nil => simp [itemsNameOnce]
  | cons first rest ih => rw [itemsNameOnce, Bool.and_eq_true, ih, List.forall_mem_cons]

/-- What was put in is found under its key, and every other entry as before. -/
theorem lookup_putEntry {α : Type} (key other : String) (value : α)
    (entries : List (String × α)) :
    (putEntry key value entries).lookup other =
      if other = key then some value else entries.lookup other := by
  induction entries with
  | nil => rw [putEntry, lookup_cons_ite]
  | cons entry rest ih =>
    obtain ⟨first, old⟩ := entry
    by_cases hfirst : first = key
    · subst hfirst
      rw [putEntry, if_pos rfl, lookup_cons_ite, lookup_cons_ite]
      split <;> rfl
    · rw [putEntry, if_neg hfirst, lookup_cons_ite, lookup_cons_ite, ih]
      by_cases hother : other = key
      · have hne : other ≠ first := fun h => hfirst (h.symm.trans hother)
        rw [if_neg hne, if_pos hother, if_pos hother]
      · rw [if_neg hother, if_neg hother]

/-- An entry that is put in has its key among those of the table, which are named as before. -/
theorem mem_putEntry {α : Type} {value : α} {entries : List (String × α)} {entry : String × α}
    (hentry : entry ∈ putEntry key value entries) : entry = (key, value) ∨ entry ∈ entries := by
  induction entries with
  | nil => exact Or.inl (List.mem_singleton.mp hentry)
  | cons first rest ih =>
    obtain ⟨other, old⟩ := first
    rw [putEntry] at hentry
    split at hentry
    · rcases List.mem_cons.mp hentry with hnew | hold
      · exact Or.inl hnew
      · exact Or.inr (List.mem_cons_of_mem _ hold)
    · rcases List.mem_cons.mp hentry with hfirst | hlater
      · exact Or.inr (hfirst ▸ List.mem_cons_self)
      · exact (ih hlater).imp id (List.mem_cons_of_mem _)

theorem nodup_putEntry {α : Type} (key : String) (value : α) {entries : List (String × α)}
    (hnodup : (entries.map Prod.fst).Nodup) :
    ((putEntry key value entries).map Prod.fst).Nodup := by
  induction entries with
  | nil => simp [putEntry]
  | cons entry rest ih =>
    obtain ⟨first, old⟩ := entry
    obtain ⟨hfresh, hrest⟩ := List.nodup_cons.mp hnodup
    rw [putEntry]
    split
    · rename_i hfirst
      exact List.nodup_cons.mpr ⟨hfirst ▸ hfresh, hrest⟩
    · rename_i hfirst
      refine List.nodup_cons.mpr ⟨fun hmem => ?_, ih hrest⟩
      obtain ⟨entry, hentry, hname⟩ := List.mem_map.mp hmem
      rcases mem_putEntry hentry with rfl | hold
      · exact hfirst hname.symm
      · exact hfresh (List.mem_map.mpr ⟨entry, hold, hname⟩)

/-- The value under a key names its keys once, if the whole table does. -/
theorem namesOnce_of_lookup (honce : (table entries).namesOnce = true)
    (hlookup : entries.lookup key = some value) : value.namesOnce = true :=
  entriesNameOnce_iff.mp (namesOnce_table.mp honce).2 _ (mem_of_lookup hlookup)

/-- Putting an entry into a table keeps its keys apart. -/
theorem namesOnce_putEntry (honce : (table entries).namesOnce = true)
    (hvalue : value.namesOnce = true) : (table (putEntry key value entries)).namesOnce = true := by
  obtain ⟨hnodup, hvalues⟩ := namesOnce_table.mp honce
  refine namesOnce_table.mpr ⟨nodup_putEntry key value hnodup, entriesNameOnce_iff.mpr ?_⟩
  intro entry hentry
  rcases mem_putEntry hentry with rfl | hold
  · exact hvalue
  · exact entriesNameOnce_iff.mp hvalues entry hold

end Entries

section Drafts

variable {key : String} {draft : Draft} {entries after : Draft.Entries}

/-- Whether the tables of a draft will name each key once. -/
def Draft.NamesOnce (entries : Draft.Entries) : Prop :=
  (Toml.table (Draft.finishEntries entries)).namesOnce = true

/-- An operation on a table keeps its keys apart. -/
def Draft.Keeps (change : Draft.Entries → Option Draft.Entries) : Prop :=
  ∀ entries after, Draft.NamesOnce entries → change entries = some after → Draft.NamesOnce after

theorem finishEntries_putEntry (key : String) (draft : Draft) (entries : Draft.Entries) :
    Draft.finishEntries (putEntry key draft entries) =
      putEntry key draft.finish (Draft.finishEntries entries) := by
  induction entries with
  | nil => rw [putEntry, Draft.finishEntries, Draft.finishEntries, Draft.finishEntries, putEntry]
  | cons entry rest ih =>
    obtain ⟨first, old⟩ := entry
    rw [putEntry, Draft.finishEntries, putEntry]
    split
    · rw [Draft.finishEntries]
    · rw [Draft.finishEntries, ih]

theorem lookup_finishEntries (key : String) (entries : Draft.Entries) :
    (Draft.finishEntries entries).lookup key = (entries.lookup key).map Draft.finish := by
  induction entries with
  | nil => rfl
  | cons entry rest ih =>
    obtain ⟨first, draft⟩ := entry
    rw [Draft.finishEntries, lookup_cons_ite, lookup_cons_ite, ih]
    split <;> rfl

theorem finishEntries_append (entries later : Draft.Entries) :
    Draft.finishEntries (entries ++ later) =
      Draft.finishEntries entries ++ Draft.finishEntries later := by
  induction entries with
  | nil => rfl
  | cons entry rest ih =>
    obtain ⟨first, draft⟩ := entry
    rw [List.cons_append, Draft.finishEntries, Draft.finishEntries, ih, List.cons_append]

theorem finishEntries_filter (keeps : String → Bool) (entries : Draft.Entries) :
    Draft.finishEntries (entries.filter fun entry => keeps entry.1) =
      (Draft.finishEntries entries).filter fun entry => keeps entry.1 := by
  induction entries with
  | nil => rfl
  | cons entry rest ih =>
    obtain ⟨first, draft⟩ := entry
    rw [Draft.finishEntries, List.filter_cons, List.filter_cons]
    split
    · rw [Draft.finishEntries, ih]
    · exact ih

theorem Draft.NamesOnce.nil : Draft.NamesOnce [] := by
  simp [NamesOnce, finishEntries, namesOnce_table, entriesNameOnce]

/-- A draft that is put into a table keeps its keys apart. -/
theorem Draft.NamesOnce.putEntry (honce : Draft.NamesOnce entries)
    (hdraft : draft.finish.namesOnce = true) : Draft.NamesOnce (putEntry key draft entries) := by
  rw [NamesOnce, finishEntries_putEntry]
  exact namesOnce_putEntry honce hdraft

theorem Draft.NamesOnce.of_lookup (honce : Draft.NamesOnce entries)
    (hlookup : entries.lookup key = some draft) : draft.finish.namesOnce = true := by
  have hvalue : (finishEntries entries).lookup key = some draft.finish := by
    rw [lookup_finishEntries, hlookup]
    rfl
  exact namesOnce_of_lookup honce hvalue

/-- The tables of a series name their keys once exactly if the last one and those before it do. -/
theorem namesOnce_series {last : Draft.Entries} {earlier : List Draft.Entries} :
    (Draft.series last earlier).finish.namesOnce = true ↔
      Draft.NamesOnce last ∧ ∀ item ∈ Draft.finishSeries earlier, item.namesOnce = true := by
  rw [Draft.finish, namesOnce, itemsNameOnce_iff, List.forall_mem_append,
    List.forall_mem_singleton, and_comm]
  rfl

theorem Draft.keeps_openTable (key : String) : Draft.Keeps (Draft.openTable key) := by
  intro entries after honce hopen
  unfold openTable at hopen
  split at hopen
  · obtain rfl := Option.some.inj hopen
    exact honce.putEntry NamesOnce.nil
  · rename_i inner hlookup
    obtain rfl := Option.some.inj hopen
    obtain ⟨hnodup, hvalues⟩ := namesOnce_table.mp honce
    -- the table that moves behind the others keeps its key to itself
    have hkept := finishEntries_filter (· != key) entries
    have hmoved : finishEntries [(key, .table .headed inner)] =
        [(key, Toml.table (finishEntries inner))] := by
      rw [finishEntries, finish, finishEntries]
    rw [NamesOnce, finishEntries_append, hkept, hmoved]
    refine namesOnce_table.mpr ⟨?_, entriesNameOnce_iff.mpr ?_⟩
    · rw [List.map_append, List.nodup_append]
      refine ⟨hnodup.sublist (List.filter_sublist.map _), List.nodup_singleton _, ?_⟩
      rintro name hname other hother rfl
      obtain ⟨entry, hentry, hsame⟩ := List.mem_map.mp hname
      have hne := (List.mem_filter.mp hentry).2
      rw [hsame, List.mem_singleton.mp hother] at hne
      simp at hne
    · intro entry hentry
      rcases List.mem_append.mp hentry with hold | hlast
      · exact entriesNameOnce_iff.mp hvalues entry (List.mem_of_mem_filter hold)
      · rw [List.mem_singleton.mp hlast]
        exact honce.of_lookup hlookup
  · cases hopen

theorem Draft.keeps_openNext (key : String) : Draft.Keeps (Draft.openNext key) := by
  intro entries after honce hopen
  unfold openNext at hopen
  split at hopen
  · obtain rfl := Option.some.inj hopen
    exact honce.putEntry (namesOnce_series.mpr ⟨.nil, by simp [finishSeries]⟩)
  · rename_i last earlier hlookup
    obtain rfl := Option.some.inj hopen
    obtain ⟨hlast, hearlier⟩ := namesOnce_series.mp (honce.of_lookup hlookup)
    refine honce.putEntry (namesOnce_series.mpr ⟨.nil, ?_⟩)
    rw [finishSeries]
    exact List.forall_mem_append.mpr ⟨hearlier, List.forall_mem_singleton.mpr hlast⟩
  · cases hopen

theorem Draft.keeps_addEntry {value : Toml} (key : String) (hvalue : value.namesOnce = true) :
    Draft.Keeps (Draft.addEntry key value) := by
  intro entries after honce hadd
  unfold addEntry at hadd
  split at hadd
  · obtain rfl := Option.some.inj hadd
    exact honce.putEntry (by rwa [finish])
  · cases hadd

/-- Putting in what was found, if anything was, keeps the keys of a table apart. -/
theorem Draft.NamesOnce.of_bind {found : Option Draft} (honce : Draft.NamesOnce entries)
    (hafter : (found.bind fun draft => some (Toml.putEntry key draft entries)) = some after)
    (hfound : ∀ draft, found = some draft → draft.finish.namesOnce = true) :
    Draft.NamesOnce after := by
  obtain ⟨draft, hdraft, hput⟩ := Option.bind_eq_some_iff.mp hafter
  obtain rfl := Option.some.inj hput
  exact honce.putEntry (hfound draft hdraft)

/-- What is changed in the last table of a series leaves those before it as they are. -/
theorem Draft.namesOnce_last {last : Draft.Entries} {earlier : List Draft.Entries}
    (hseries : (Draft.series last earlier).finish.namesOnce = true) {changed : Draft.Entries}
    (hchanged : Draft.NamesOnce last → Draft.NamesOnce changed) :
    (Draft.series changed earlier).finish.namesOnce = true := by
  obtain ⟨hlast, hearlier⟩ := namesOnce_series.mp hseries
  exact namesOnce_series.mpr ⟨hchanged hlast, hearlier⟩

/-- What keeps the keys of a table apart does so for a table that a header path leads to. -/
theorem Draft.keeps_withinHeader {change : Draft.Entries → Option Draft.Entries}
    (hchange : Draft.Keeps change) (path : List String) :
    Draft.Keeps (Draft.withinHeader change path) := by
  induction path with
  | nil => exact hchange
  | cons key path ih =>
    intro entries after honce hwithin
    rw [withinHeader] at hwithin
    split at hwithin
    · refine honce.of_bind hwithin fun draft hdraft => ?_
      obtain ⟨inner, hinner, rfl⟩ := Option.map_eq_some_iff.mp hdraft
      exact ih [] inner .nil hinner
    · rename_i origin old hlookup
      refine honce.of_bind hwithin fun draft hdraft => ?_
      obtain ⟨inner, hinner, rfl⟩ := Option.map_eq_some_iff.mp hdraft
      exact ih old inner (honce.of_lookup hlookup) hinner
    · rename_i old earlier hlookup
      refine honce.of_bind hwithin fun draft hdraft => ?_
      obtain ⟨last, hlast, rfl⟩ := Option.map_eq_some_iff.mp hdraft
      exact namesOnce_last (honce.of_lookup hlookup) fun hold => ih old last hold hlast
    · cases hwithin

/-- The same holds for a table that a dotted key leads to. -/
theorem Draft.keeps_withinDotted {change : Draft.Entries → Option Draft.Entries}
    (hchange : Draft.Keeps change) (path : List String) :
    Draft.Keeps (Draft.withinDotted change path) := by
  induction path with
  | nil => exact hchange
  | cons key path ih =>
    intro entries after honce hwithin
    rw [withinDotted] at hwithin
    split at hwithin
    · refine honce.of_bind hwithin fun draft hdraft => ?_
      obtain ⟨inner, hinner, rfl⟩ := Option.map_eq_some_iff.mp hdraft
      exact ih [] inner .nil hinner
    · rename_i origin old hlookup
      split at hwithin
      · cases hwithin
      · refine honce.of_bind hwithin fun draft hdraft => ?_
        obtain ⟨inner, hinner, rfl⟩ := Option.map_eq_some_iff.mp hdraft
        exact ih old inner (honce.of_lookup hlookup) hinner
    · rename_i old earlier hlookup
      split at hwithin
      · cases hwithin
      · refine honce.of_bind hwithin fun draft hdraft => ?_
        obtain ⟨last, hlast, rfl⟩ := Option.map_eq_some_iff.mp hdraft
        exact namesOnce_last (honce.of_lookup hlookup) fun hold => ih old last hold hlast
    · cases hwithin

theorem Draft.keeps_addDotted {value : Toml} (keys : List String)
    (hvalue : value.namesOnce = true) : Draft.Keeps (Draft.addDotted keys value) := by
  intro entries after honce hadd
  obtain ⟨key, -, hwithin⟩ := Option.bind_eq_some_iff.mp hadd
  exact keeps_withinDotted (keeps_addEntry key hvalue) _ entries after honce hwithin

end Drafts

end LanguageClient.Toml
