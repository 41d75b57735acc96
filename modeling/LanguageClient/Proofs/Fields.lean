import LanguageClient.Json.Basic
import Mathlib.Data.List.Nodup
import Mathlib.Data.String.Basic

/-!
# Looking up members

Grants by method and open documents by address are kept as members by name, and outcomes by number.
What is put in is found under its name, and whatever stands under another name stays where it is.
-/

namespace LanguageClient

variable {κ α : Type} [BEq κ] [LawfulBEq κ] [DecidableEq κ]

/-- The first member is looked at before the others. -/
theorem lookup_cons_ite (name other : κ) (value : α) (fields : List (κ × α)) :
    ((name, value) :: fields).lookup other =
      if other = name then some value else fields.lookup other := by
  by_cases h : other = name
  · subst h
    simp
  · have hne : (other == name) = false := beq_eq_false_iff_ne.mpr h
    simp [List.lookup_cons, hne, h]

/-- The member that was put in last is found under its name, and every other one as before. The list
need not ascend for this. -/
theorem lookup_insertField (name other : String) (value : α) (fields : List (String × α)) :
    (insertField name value fields).lookup other =
      if other = name then some value else fields.lookup other := by
  induction fields with
  | nil => simp only [insertField, lookup_cons_ite]
  | cons field rest ih =>
    obtain ⟨first, old⟩ := field
    rw [insertField]
    split
    · exact lookup_cons_ite name other value _
    · split <;> rename_i hfirst
      · subst hfirst
        simp only [lookup_cons_ite]
        split <;> rfl
      · simp only [lookup_cons_ite, ih]
        split <;> rename_i hother
        · rw [if_neg (by rw [hother]; exact Ne.symm hfirst)]
        · rfl

/-- Without the members of one name, that name has none, and every other name has what it had. -/
theorem lookup_filter_ne (name other : κ) (fields : List (κ × α)) :
    (fields.filter fun field => field.1 != name).lookup other =
      if other = name then none else fields.lookup other := by
  induction fields with
  | nil => simp
  | cons field rest ih =>
    obtain ⟨first, old⟩ := field
    by_cases hfirst : first = name
    · subst hfirst
      have hout : (first != first) = false := by simp
      rw [List.filter_cons, hout, if_neg (by decide), ih, lookup_cons_ite]
      split <;> rfl
    · have hin : (first != name) = true := bne_iff_ne.mpr hfirst
      rw [List.filter_cons, hin, if_pos rfl, lookup_cons_ite, lookup_cons_ite, ih]
      split <;> rename_i hother
      · rw [if_neg (by rw [hother]; exact hfirst)]
      · rfl

omit [DecidableEq κ] in
/-- A name under which nothing is found is the name of no member. -/
theorem not_mem_of_lookup_eq_none {name : κ} {fields : List (κ × α)}
    (hnone : fields.lookup name = none) : name ∉ fields.map Prod.fst := by
  intro hmem
  obtain ⟨field, hfield, rfl⟩ := List.mem_map.mp hmem
  have hne := List.lookup_eq_none_iff.mp hnone field hfield
  simp at hne

omit [DecidableEq κ] in
/-- Nothing is found under a name that no member has. -/
theorem lookup_eq_none_of_not_mem {name : κ} {fields : List (κ × α)}
    (hmem : name ∉ fields.map Prod.fst) : fields.lookup name = none :=
  List.lookup_eq_none_iff.mpr fun field hfield => bne_iff_ne.mpr fun hname =>
    hmem (List.mem_map.mpr ⟨field, hfield, hname.symm⟩)

/-- Members of different names that are put in one after the other count before those that were
there. -/
theorem lookup_foldl_insertField {fields : List (String × α)}
    (hnodup : (fields.map Prod.fst).Nodup) (sorted : List (String × α)) (name : String) :
    (fields.foldl (fun sorted field => insertField field.1 field.2 sorted) sorted).lookup name =
      (fields.lookup name).or (sorted.lookup name) := by
  induction fields generalizing sorted with
  | nil => rfl
  | cons field rest ih =>
    obtain ⟨first, value⟩ := field
    obtain ⟨hfresh, hrest⟩ := List.nodup_cons.mp hnodup
    rw [List.foldl_cons, ih hrest, lookup_insertField, lookup_cons_ite]
    split
    · rename_i hname
      subst hname
      rw [lookup_eq_none_of_not_mem hfresh]
      rfl
    · rfl

omit [DecidableEq κ] in
/-- What is found under a name is a member of this name. -/
theorem mem_of_lookup {name : κ} {value : α} {fields : List (κ × α)}
    (hlookup : fields.lookup name = some value) : (name, value) ∈ fields := by
  obtain ⟨before, after, rfl, -⟩ := List.lookup_eq_some_iff.mp hlookup
  exact List.mem_append_right _ List.mem_cons_self

/-- Among members of different names, each is found under its name. -/
theorem lookup_of_mem {name : κ} {value : α} {fields : List (κ × α)}
    (hnodup : (fields.map Prod.fst).Nodup) (hmem : (name, value) ∈ fields) :
    fields.lookup name = some value := by
  induction fields with
  | nil => cases hmem
  | cons field rest ih =>
    obtain ⟨first, old⟩ := field
    obtain ⟨hfresh, hrest⟩ := List.nodup_cons.mp hnodup
    rw [lookup_cons_ite]
    rcases List.mem_cons.mp hmem with heq | hlater
    · obtain ⟨rfl, rfl⟩ := Prod.mk.inj heq
      rw [if_pos rfl]
    · rw [if_neg, ih hrest hlater]
      rintro rfl
      exact hfresh (List.mem_map.mpr ⟨(name, value), hlater, rfl⟩)

omit [BEq κ] [LawfulBEq κ] [DecidableEq κ] in
/-- The members whose values are there have some of the names. -/
theorem names_filterMap_sublist {ι : Type} (name : ι → κ) (value : ι → Option α) (items : List ι) :
    ((items.filterMap fun item => (value item).map (name item, ·)).map Prod.fst).Sublist
      (items.map name) := by
  induction items with
  | nil => exact List.Sublist.refl _
  | cons item items ih =>
    rw [List.filterMap_cons]
    cases value item with
    | none => exact ih.cons _
    | some _ => exact ih.cons_cons _

/-- Among members of different names whose values are there, each is found under its name. -/
theorem lookup_filterMap {ι : Type} {name : ι → κ} (value : ι → Option α) {items : List ι}
    (hnodup : (items.map name).Nodup) {item : ι} (hitem : item ∈ items) :
    (items.filterMap fun item => (value item).map (name item, ·)).lookup (name item) =
      value item := by
  cases hvalue : value item with
  | some found =>
    refine lookup_of_mem (hnodup.sublist (names_filterMap_sublist name value items)) ?_
    exact List.mem_filterMap.mpr ⟨item, hitem, by rw [hvalue]; rfl⟩
  | none =>
    refine lookup_eq_none_of_not_mem fun hmem => ?_
    obtain ⟨field, hfield, hname⟩ := List.mem_map.mp hmem
    obtain ⟨other, hother, hfound⟩ := List.mem_filterMap.mp hfield
    obtain ⟨found, hother', rfl⟩ := Option.map_eq_some_iff.mp hfound
    obtain rfl := List.inj_on_of_nodup_map hnodup hother hitem hname
    rw [hvalue] at hother'
    cases hother'

omit [DecidableEq κ] in
/-- A name belongs to a member exactly if something is found under it. -/
theorem mem_names_iff {name : κ} {fields : List (κ × α)} :
    name ∈ fields.map Prod.fst ↔ (fields.lookup name).isSome = true := by
  constructor
  · intro hmem
    cases hfound : fields.lookup name with
    | none => exact absurd hmem (not_mem_of_lookup_eq_none hfound)
    | some value => rfl
  · intro hfound
    by_contra hmem
    rw [lookup_eq_none_of_not_mem hmem] at hfound
    cases hfound

/-- Putting in a member adds its name to those of the others. -/
theorem mem_names_insertField {name other : String} {value : α} {fields : List (String × α)} :
    other ∈ (insertField name value fields).map Prod.fst ↔
      other = name ∨ other ∈ fields.map Prod.fst := by
  rw [mem_names_iff, mem_names_iff, lookup_insertField]
  by_cases hname : other = name
  · simp [hname]
  · simp [hname]

/-- Members whose names ascend still do so after one was put in. -/
theorem ascends_insertField {fields : List (String × α)} (name : String) (value : α)
    (hascends : (fields.map Prod.fst).Pairwise (· < ·)) :
    ((insertField name value fields).map Prod.fst).Pairwise (· < ·) := by
  induction fields with
  | nil => exact List.pairwise_singleton _ _
  | cons field rest ih =>
    obtain ⟨first, old⟩ := field
    obtain ⟨hfirst, hrest⟩ := List.pairwise_cons.mp hascends
    rw [insertField]
    split
    · rename_i hbefore
      refine List.pairwise_cons.mpr ⟨?_, hascends⟩
      intro other hother
      rcases List.mem_cons.mp hother with rfl | hlater
      · exact hbefore
      · exact String.lt_trans hbefore (hfirst other hlater)
    · split <;> rename_i hbefore hname
      · subst hname
        exact List.pairwise_cons.mpr ⟨hfirst, hrest⟩
      · refine List.pairwise_cons.mpr ⟨?_, ih hrest⟩
        intro other hother
        rcases mem_names_insertField.mp hother with rfl | hlater
        · exact lt_of_le_of_ne (String.not_lt.mp hbefore) (Ne.symm hname)
        · exact hfirst other hlater

/-- Putting in a member under a new name adds it and changes nothing else. -/
theorem insertField_perm {name : String} {fields : List (String × α)}
    (hnone : fields.lookup name = none) (value : α) :
    (insertField name value fields).Perm ((name, value) :: fields) := by
  induction fields with
  | nil => exact List.Perm.refl _
  | cons field rest ih =>
    obtain ⟨first, old⟩ := field
    rw [lookup_cons_ite] at hnone
    split at hnone
    · cases hnone
    · rename_i hne
      rw [insertField, if_neg hne]
      split
      · exact List.Perm.refl _
      · exact ((ih hnone).cons _).trans (List.Perm.swap _ _ _)

end LanguageClient
