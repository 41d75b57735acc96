import LanguageClient.Proofs.Feature.Static
import LanguageClient.Proofs.Runs

/-!
# The registry is kept in order

The grants of a registry change when the server answers the handshake, when it registers a feature
and when it takes a registration back. Each of these changes keeps the grants in order: every grant
stands under its own method, no method is left without a grant, and an id names at most one grant of
a method. What is refused changes nothing, and what is taken back is one grant.
-/

namespace LanguageClient

namespace Grant

/-- The methods that options about the life of documents can grant, in the order of their grants. -/
def syncMethods : List String := [
  "textDocument/didOpen", "textDocument/didClose", "textDocument/didSave", "textDocument/willSave",
  "textDocument/willSaveWaitUntil", "textDocument/didChange"]

/-- All methods that the answer to the handshake can grant, in the order of their grants. -/
def staticMethods : List String :=
  syncMethods ++ StaticCapability.all.map StaticCapability.method ++ [foldersMethod]

private theorem methods_ite_sublist (condition : Prop) [Decidable condition]
    (grants : List Grant) :
    ((if condition then grants else []).map Grant.method).Sublist (grants.map Grant.method) := by
  split
  · exact List.Sublist.refl _
  · exact List.nil_sublist _

/-- Options about the life of documents grant methods in a fixed order, each at most once. -/
theorem methods_ofSyncOptions (options : SyncOptions) :
    ((ofSyncOptions options).map Grant.method).Sublist syncMethods := by
  obtain ⟨openClose, change, willSave, willSaveWaitUntil, save⟩ := options
  have hparts : syncMethods = ["textDocument/didOpen", "textDocument/didClose"] ++
      ["textDocument/didSave"] ++ ["textDocument/willSave"] ++ ["textDocument/willSaveWaitUntil"] ++
      ["textDocument/didChange"] := rfl
  rw [hparts]
  simp only [ofSyncOptions, List.map_append]
  refine ((((methods_ite_sublist _ _).append ?_).append (methods_ite_sublist _ _)).append
    (methods_ite_sublist _ _)).append ?_
  · cases save with
    | none => exact List.nil_sublist _
    | some save => exact methods_ite_sublist _ _
  · split
    · exact List.nil_sublist _
    · exact List.nil_sublist _
    · exact List.Sublist.refl _

/-- A capability grants its method or nothing. -/
theorem methods_ofStatic (capabilities : ServerCapabilities) (all : List StaticCapability) :
    ((all.filterMap (ofStatic? capabilities)).map Grant.method).Sublist
      (all.map StaticCapability.method) := by
  induction all with
  | nil => exact List.nil_sublist _
  | cons capability rest ih =>
    rw [List.filterMap_cons, List.map_cons]
    split
    · exact ih.cons _
    · rename_i grant hgrant
      have hmethod : grant.method = capability.method := by
        unfold ofStatic? at hgrant
        obtain ⟨raw, -, hgrant⟩ := Option.bind_eq_some_iff.mp hgrant
        split at hgrant
        · exact (Option.some.inj hgrant) ▸ rfl
        · cases hgrant
      rw [List.map_cons, hmethod]
      exact ih.cons_cons _

/-- The answer to the handshake grants each method at most once. -/
theorem nodup_methods_ofCapabilities (capabilities : ServerCapabilities) :
    ((ofCapabilities capabilities).map Grant.method).Nodup := by
  have hall : staticMethods.Nodup := by decide +kernel
  refine List.Sublist.nodup ?_ hall
  simp only [ofCapabilities, List.map_append, staticMethods]
  refine ((?_ : List.Sublist _ _).append (methods_ofStatic capabilities _)).append ?_
  · cases capabilities.documentSync with
    | none => exact List.nil_sublist _
    | some sync =>
      rw [Option.map_some, Option.getD_some, ofSync_eq]
      exact methods_ofSyncOptions _
  · unfold ofFolders
    split
    · exact List.Sublist.refl _
    · exact List.nil_sublist _

/-- Among grants of different methods no id stands twice under one method. -/
theorem nodup_ids_of_nodup_methods {grants : List Grant}
    (hnodup : (grants.map Grant.method).Nodup) (method : String) :
    ((grants.filter (·.method == method)).filterMap Grant.id).Nodup := by
  have hmethods : ∀ grant ∈ grants.filter (·.method == method), grant.method = method :=
    fun grant hgrant => eq_of_beq (List.mem_filter.mp hgrant).2
  have hdistinct : ((grants.filter (·.method == method)).map Grant.method).Nodup :=
    (List.filter_sublist.map Grant.method).nodup hnodup
  generalize grants.filter (·.method == method) = found at hmethods hdistinct ⊢
  match found with
  | [] => exact List.nodup_nil
  | [grant] => cases hid : grant.id <;> simp [hid]
  | first :: second :: rest =>
    have hfirst := hmethods first (by simp)
    have hsecond := hmethods second (by simp)
    simp [hfirst, hsecond] at hdistinct

end Grant

namespace Registry

/-- Appending grants lists their methods too. -/
theorem mem_names_foldl_append (grants : List Grant) (fields : List (String × List Grant))
    (method : String) : method ∈ (grants.foldl append fields).map Prod.fst ↔
      method ∈ fields.map Prod.fst ∨ ∃ grant ∈ grants, grant.method = method := by
  induction grants generalizing fields with
  | nil => simp
  | cons grant rest ih =>
    rw [List.foldl_cons, ih, append, mem_names_insertField, List.exists_mem_cons_iff, or_assoc,
      or_left_comm, @eq_comm _ method]

/-- Appending grants keeps the methods in ascending order. -/
theorem ascends_foldl_append {fields : List (String × List Grant)} (grants : List Grant)
    (hascends : (fields.map Prod.fst).Pairwise (· < ·)) :
    ((grants.foldl append fields).map Prod.fst).Pairwise (· < ·) := by
  induction grants generalizing fields with
  | nil => exact hascends
  | cons grant rest ih => exact ih (ascends_insertField _ _ hascends)

section Places

variable (registry : Registry) (method other : String) (grants : List Grant)

/-- The registry with other grants of one method. -/
def put : Registry :=
  { registry with grants := insertField method grants registry.grants }

/-- The registry without the grants of one method. -/
def clear : Registry :=
  { registry with grants := registry.grants.filter fun entry => entry.1 != method }

theorem grantsOf_put :
    (registry.put method grants).grantsOf other =
      if other = method then grants else registry.grantsOf other := by
  unfold put grantsOf
  rw [lookup_insertField]
  split <;> rfl

theorem grantsOf_clear :
    (registry.clear method).grantsOf other =
      if other = method then [] else registry.grantsOf other := by
  unfold clear grantsOf
  rw [lookup_filter_ne]
  split <;> rfl

/-- The answer to the handshake replaces all grants by its own. -/
theorem grantsOf_setCapabilities (files : FileTree) (capabilities : ServerCapabilities) :
    (registry.setCapabilities files capabilities).grantsOf method =
      (Grant.ofCapabilities capabilities).filter (·.method == method) :=
  (lookup_foldl_append _ [] method).trans (List.nil_append _)

theorem mem_methods_put :
    other ∈ (registry.put method grants).methods ↔ other = method ∨ other ∈ registry.methods :=
  mem_names_insertField

theorem mem_methods_clear :
    other ∈ (registry.clear method).methods ↔ other ≠ method ∧ other ∈ registry.methods := by
  unfold clear methods
  rw [mem_names_iff, mem_names_iff, lookup_filter_ne]
  by_cases hother : other = method <;> simp [hother]

end Places

/-- A grant takes the place of the first one with its id; if there is none it goes to the end. -/
theorem replaceOrAppend_cases (grant : Grant) (grants : List Grant) :
    (∃ before other after, grants = before ++ other :: after ∧ other.id = grant.id ∧
      grant.id ≠ none ∧ replaceOrAppend grant grants = before ++ grant :: after) ∨
    ((∀ other ∈ grants, ∀ id, other.id = some id → grant.id ≠ some id) ∧
      replaceOrAppend grant grants = grants ++ [grant]) := by
  induction grants with
  | nil => exact Or.inr ⟨List.forall_mem_nil _, rfl⟩
  | cons first rest ih =>
    rw [replaceOrAppend]
    split <;> rename_i hfirst
    · rw [Bool.and_eq_true, beq_iff_eq] at hfirst
      refine Or.inl ⟨[], first, rest, rfl, hfirst.2, ?_, rfl⟩
      rintro hnone
      rw [hfirst.2, hnone] at hfirst
      cases hfirst.1
    · rcases ih with ⟨before, other, after, rfl, hid, hsome, hresult⟩ | ⟨hfresh, hresult⟩
      · exact Or.inl ⟨first :: before, other, after, rfl, hid, hsome, by rw [hresult]; rfl⟩
      · refine Or.inr ⟨?_, by rw [hresult]; rfl⟩
        intro other hother id hid hgrant
        rcases List.mem_cons.mp hother with rfl | hlater
        · simp [hid, hgrant] at hfirst
        · exact hfresh other hlater id hid hgrant

theorem mem_replaceOrAppend {grant other : Grant} {grants : List Grant}
    (hmem : other ∈ replaceOrAppend grant grants) : other = grant ∨ other ∈ grants := by
  rcases replaceOrAppend_cases grant grants with
    ⟨before, replaced, after, rfl, -, -, hresult⟩ | ⟨-, hresult⟩
  · rw [hresult] at hmem
    simp only [List.mem_append, List.mem_cons] at hmem ⊢
    tauto
  · rw [hresult] at hmem
    simp only [List.mem_append, List.mem_singleton] at hmem
    exact hmem.symm

/-- A registration that is accepted puts one grant under its method, in the place of the one with
its id or behind all others. -/
theorem add_eq_ok {files : FileTree} {registry after : Registry} {registration : Registration}
    (hadd : registry.add files registration = .ok after) :
    registry.state = .ready ∧ ∃ grant, Grant.ofRegistration registration = .ok grant ∧
      after = signalMet files (some grant.method) (registry.put grant.method
        (replaceOrAppend grant (registry.grantsOf grant.method))) := by
  unfold add at hadd
  split at hadd
  · cases hadd
  · rename_i hready
    split at hadd
    · cases hadd
    · rename_i grant hgrant
      exact ⟨by simpa [isReady] using hready, grant, hgrant, (Except.ok.inj hadd).symm⟩

/-- The first grant of a method with an id is taken back under it, and all others stay where they
are; the method goes with the last of its grants. -/
theorem remove_of_split {registry : Registry} (unregistration : Unregistration)
    {before after : List Grant} {grant : Grant}
    (hsplit : registry.grantsOf unregistration.method = before ++ grant :: after)
    (hid : grant.id = some unregistration.id)
    (hbefore : ∀ other ∈ before, other.id ≠ some unregistration.id) :
    registry.remove unregistration =
      (if before ++ after = [] then registry.clear unregistration.method
        else registry.put unregistration.method (before ++ after), true) := by
  have hmeant : (grant.id == some unregistration.id) = true := by simp [hid]
  have hothers : ∀ other ∈ before, ¬ (other.id == some unregistration.id) = true :=
    fun other hother => by simpa using hbefore other hother
  have herase : (before ++ grant :: after).eraseP
      (fun other => other.id == some unregistration.id) = before ++ after := by
    rw [List.eraseP_append_right _ hothers, List.eraseP_cons, hmeant, cond_true]
  unfold remove
  dsimp only
  rw [hsplit, if_pos (by simp [hid]), herase]
  by_cases hempty : before ++ after = []
  · rw [if_pos hempty, hempty]
    rfl
  · have hfull : (before ++ after).isEmpty = false := List.isEmpty_eq_false_iff.mpr hempty
    rw [if_neg hempty, hfull]
    rfl

/-- Of the grants of a method with an id one is the first. -/
theorem exists_first {grants : List Grant} {id : String}
    (hmem : ∃ grant ∈ grants, grant.id = some id) :
    ∃ before grant after, grants = before ++ grant :: after ∧ grant.id = some id ∧
      ∀ other ∈ before, other.id ≠ some id := by
  obtain ⟨found, hfound, hid⟩ := hmem
  obtain ⟨grant, before, after, hbefore, hgrant, hsplit, -⟩ :=
    List.exists_of_eraseP (p := fun grant => grant.id == some id) hfound (by simp [hid])
  exact ⟨before, grant, after, hsplit, by simpa using hgrant,
    fun other hother => by simpa using hbefore other hother⟩

/-- An id that names no grant of the method takes nothing back. -/
theorem remove_of_not_mem {registry : Registry} (unregistration : Unregistration)
    (hnone : ∀ grant ∈ registry.grantsOf unregistration.method,
      grant.id ≠ some unregistration.id) :
    registry.remove unregistration = (registry, false) := by
  have hmeant : (registry.grantsOf unregistration.method).any
      (fun grant => grant.id == some unregistration.id) = false :=
    List.any_eq_false.mpr fun grant hgrant => by simpa using hnone grant hgrant
  unfold remove
  dsimp only
  rw [hmeant, if_neg Bool.false_ne_true]

/-- Something is taken back exactly if the id names a grant of the method. -/
theorem remove_eq_true_iff {registry : Registry} {unregistration : Unregistration} :
    (registry.remove unregistration).2 = true ↔
      ∃ grant ∈ registry.grantsOf unregistration.method, grant.id = some unregistration.id := by
  constructor
  · intro hremoved
    by_contra hmem
    rw [remove_of_not_mem unregistration (by simpa using hmem)] at hremoved
    cases hremoved
  · intro hmem
    obtain ⟨_, _, _, hsplit, hid, hbefore⟩ := exists_first hmem
    rw [remove_of_split unregistration hsplit hid hbefore]

/-- One change of the grants. -/
inductive Change
  | setCapabilities (capabilities : ServerCapabilities)
  | add (registration : Registration)
  | remove (unregistration : Unregistration)

/-- What a change leads to, and whether it was accepted or, for a registration that is taken back,
whether there was one. -/
def change (files : FileTree) (registry : Registry) : Change → Registry × Bool
  | .setCapabilities capabilities => (registry.setCapabilities files capabilities, true)
  | .add registration =>
    match registry.add files registration with
    | .ok after => (after, true)
    | .error _ => (registry, false)
  | .remove unregistration => registry.remove unregistration

/-- The registry after some changes since the beginning, each with the files as they were then. -/
def afterChanges (changes : List (FileTree × Change)) : Registry :=
  Run.final (fun registry entry => (registry.change entry.1 entry.2).1) .empty changes

/-- The grants are in order. -/
structure WellKept (registry : Registry) : Prop where
  ascending : registry.methods.Pairwise (· < ·)
  /-- A method is listed exactly if it has a grant. -/
  listed (method : String) : method ∈ registry.methods ↔ registry.grantsOf method ≠ []
  housed (method : String) : ∀ grant ∈ registry.grantsOf method, grant.method = method
  /-- An id names at most one grant of a method. -/
  distinct (method : String) : ((registry.grantsOf method).filterMap Grant.id).Nodup
  ready_iff : registry.state = .ready ↔ registry.capabilities.isSome = true
  unready : registry.state = .uninitialized → registry.grants = []

namespace WellKept

variable {registry : Registry} {files : FileTree}

theorem empty : Registry.empty.WellKept where
  ascending := List.Pairwise.nil
  listed _ := by simp [methods, grantsOf, Registry.empty]
  housed _ _ hgrant := by cases hgrant
  distinct _ := List.nodup_nil
  ready_iff := by simp [Registry.empty]
  unready _ := rfl

/-- Entries and signals do not matter for the order of the grants. -/
theorem signalMet (hkept : registry.WellKept) (method? : Option String) :
    (Registry.signalMet files method? registry).WellKept :=
  ⟨hkept.ascending, hkept.listed, hkept.housed, hkept.distinct, hkept.ready_iff, hkept.unready⟩

/-- The grants that are put under a method have to be in order themselves. -/
theorem put (hkept : registry.WellKept) (hready : registry.state = .ready) {method : String}
    {grants : List Grant} (hne : grants ≠ []) (hhoused : ∀ grant ∈ grants, grant.method = method)
    (hdistinct : (grants.filterMap Grant.id).Nodup) : (registry.put method grants).WellKept where
  ascending := ascends_insertField method grants hkept.ascending
  listed other := by
    rw [mem_methods_put, grantsOf_put]
    by_cases hother : other = method
    · simp only [hother, true_or, if_true, ne_eq, hne, not_false_eq_true]
    · simp only [hother, false_or, if_false, hkept.listed other]
  housed other := by
    rw [grantsOf_put]
    split <;> rename_i hother
    · rwa [hother]
    · exact hkept.housed other
  distinct other := by
    rw [grantsOf_put]
    split
    · exact hdistinct
    · exact hkept.distinct other
  ready_iff := hkept.ready_iff
  unready hunready := by
    rw [show registry.state = .uninitialized from hunready] at hready
    cases hready

/-- A method may lose all of its grants. -/
theorem clear (hkept : registry.WellKept) (method : String) : (registry.clear method).WellKept where
  ascending := hkept.ascending.sublist (List.filter_sublist.map Prod.fst)
  listed other := by
    rw [mem_methods_clear, grantsOf_clear]
    by_cases hother : other = method
    · simp [hother]
    · simp only [hother, ne_eq, not_false_eq_true, true_and, if_false, hkept.listed other]
  housed other := by
    rw [grantsOf_clear]
    split
    · exact List.forall_mem_nil _
    · exact hkept.housed other
  distinct other := by
    rw [grantsOf_clear]
    split
    · exact List.nodup_nil
    · exact hkept.distinct other
  ready_iff := hkept.ready_iff
  unready hunready := by
    unfold Registry.clear
    rw [hkept.unready hunready, List.filter_nil]

/-- A grant that is added under its method leaves that method in order. -/
theorem replaceOrAppend (hkept : registry.WellKept) (grant : Grant) :
    Registry.replaceOrAppend grant (registry.grantsOf grant.method) ≠ [] ∧
      (∀ other ∈ Registry.replaceOrAppend grant (registry.grantsOf grant.method),
        other.method = grant.method) ∧
      ((Registry.replaceOrAppend grant (registry.grantsOf grant.method)).filterMap
        Grant.id).Nodup := by
  have hhoused := hkept.housed grant.method
  have hdistinct := hkept.distinct grant.method
  have hmethods : ∀ other ∈ Registry.replaceOrAppend grant (registry.grantsOf grant.method),
      other.method = grant.method := by
    intro other hother
    rcases mem_replaceOrAppend hother with rfl | hearlier
    · rfl
    · exact hhoused other hearlier
  rcases replaceOrAppend_cases grant (registry.grantsOf grant.method) with
    ⟨before, other, after, hsplit, hid, -, hresult⟩ | ⟨hfresh, hresult⟩
  · refine ⟨by rw [hresult]; simp, hmethods, ?_⟩
    -- The new grant has the id of the old one, so the ids stay as they were.
    rw [hsplit] at hdistinct
    rw [hresult, List.filterMap_append, List.filterMap_cons, ← hid, ← List.filterMap_cons,
      ← List.filterMap_append]
    exact hdistinct
  · refine ⟨by rw [hresult]; simp, hmethods, ?_⟩
    · rw [hresult, List.filterMap_append]
      refine List.nodup_append.mpr ⟨hdistinct, ?_, ?_⟩
      · cases hid : grant.id <;> simp [hid]
      · intro id hold other hnew heq
        obtain ⟨entry, hentry, hid⟩ := List.mem_filterMap.mp hold
        obtain ⟨last, hlast, hother⟩ := List.mem_filterMap.mp hnew
        rw [List.mem_singleton.mp hlast] at hother
        exact hfresh entry hentry id hid (hother.trans (congrArg some heq.symm))

theorem add (hkept : registry.WellKept) {registration : Registration} {after : Registry}
    (hadd : registry.add files registration = .ok after) : after.WellKept := by
  obtain ⟨hready, grant, -, rfl⟩ := add_eq_ok hadd
  obtain ⟨hne, hhoused, hdistinct⟩ := hkept.replaceOrAppend grant
  exact (hkept.put hready hne hhoused hdistinct).signalMet _

theorem remove (hkept : registry.WellKept) (unregistration : Unregistration) :
    (registry.remove unregistration).1.WellKept := by
  by_cases hmem : ∃ grant ∈ registry.grantsOf unregistration.method,
      grant.id = some unregistration.id
  · obtain ⟨before, grant, after, hsplit, hid, hbefore⟩ := exists_first hmem
    rw [remove_of_split unregistration hsplit hid hbefore]
    have hfewer : (before ++ after).Sublist (registry.grantsOf unregistration.method) := by
      rw [hsplit]
      exact (List.Sublist.refl before).append (List.sublist_cons_self grant after)
    by_cases hempty : before ++ after = []
    · rw [if_pos hempty]
      exact hkept.clear _
    · rw [if_neg hempty]
      refine hkept.put ?_ hempty ?_ ?_
      -- A registry that has not heard from its server yet has no grant to be taken back.
      · cases hstate : registry.state with
        | ready => rfl
        | uninitialized =>
          rw [grantsOf, hkept.unready hstate] at hsplit
          simp at hsplit
      · exact fun other hother => hkept.housed _ other (hfewer.subset hother)
      · exact (hkept.distinct _).sublist (hfewer.filterMap _)
  · rw [remove_of_not_mem unregistration (by simpa using hmem)]
    exact hkept

theorem setCapabilities (registry : Registry) (capabilities : ServerCapabilities) :
    (registry.setCapabilities files capabilities).WellKept := by
  have hgrants (method : String) := grantsOf_setCapabilities registry method files capabilities
  refine ⟨?_, ?_, ?_, ?_, ?_, ?_⟩
  · exact ascends_foldl_append _ List.Pairwise.nil
  · intro method
    rw [hgrants, ne_eq, List.filter_eq_nil_iff]
    exact (mem_names_foldl_append _ _ _).trans (by simp)
  · intro method grant hgrant
    rw [hgrants] at hgrant
    exact eq_of_beq (List.mem_filter.mp hgrant).2
  · intro method
    rw [hgrants]
    exact Grant.nodup_ids_of_nodup_methods (Grant.nodup_methods_ofCapabilities capabilities) method
  · exact ⟨fun _ => rfl, fun _ => rfl⟩
  · intro hunready
    cases hunready

/-- Every change keeps the grants in order. -/
theorem change (hkept : registry.WellKept) (step : Change) :
    (registry.change files step).1.WellKept := by
  cases step with
  | setCapabilities capabilities => exact setCapabilities registry capabilities
  | add registration =>
    unfold Registry.change
    dsimp only
    split
    · rename_i after hadd
      exact hkept.add hadd
    · exact hkept
  | remove unregistration => exact hkept.remove unregistration

/-- A request that is content with any grant is met for exactly the methods that are listed. -/
theorem check_empty (hkept : registry.WellKept) (files : FileTree) (method : String) :
    registry.check files method .empty = true ↔ method ∈ registry.methods := by
  rw [hkept.listed]
  simp [check, FeatureRequest.isMet_eq, FeatureRequest.empty]

end WellKept

/-- What is refused changes nothing. -/
theorem change_of_refused {files : FileTree} {registry : Registry} {step : Change}
    (hrefused : (registry.change files step).2 = false) :
    (registry.change files step).1 = registry := by
  cases step with
  | setCapabilities capabilities => cases hrefused
  | add registration =>
    unfold change at hrefused ⊢
    dsimp only at hrefused ⊢
    split at hrefused
    · cases hrefused
    · rfl
  | remove unregistration =>
    have hmem : ¬ ∃ grant ∈ registry.grantsOf unregistration.method,
        grant.id = some unregistration.id := fun hmem => by
      rw [change, remove_eq_true_iff.mpr hmem] at hrefused
      cases hrefused
    rw [change, remove_of_not_mem unregistration (by simpa using hmem)]

/-- One registry comes of the other by taking back one grant, the only one of its method with its
id. All other grants stay where they are, and nothing but the grants changes. -/
def TakesBack (unregistration : Unregistration) (registry result : Registry) : Prop :=
  ∃ before grant after,
    registry.grantsOf unregistration.method = before ++ grant :: after ∧
    grant.id = some unregistration.id ∧
    (∀ other ∈ before ++ after, other.id ≠ some unregistration.id) ∧
    (∀ method, result.grantsOf method =
      if method = unregistration.method then before ++ after else registry.grantsOf method) ∧
    result = { registry with grants := result.grants }

theorem WellKept.takesBack {registry : Registry} (hkept : registry.WellKept)
    {unregistration : Unregistration}
    (hremoved : (registry.remove unregistration).2 = true) :
    TakesBack unregistration registry (registry.remove unregistration).1 := by
  obtain ⟨before, grant, after, hsplit, hid, hbefore⟩ :=
    exists_first (remove_eq_true_iff.mp hremoved)
  have hresult := remove_of_split unregistration hsplit hid hbefore
  refine ⟨before, grant, after, hsplit, hid, ?_, ?_, ?_⟩
  · intro other hother
    rcases List.mem_append.mp hother with hearlier | hlater
    · exact hbefore other hearlier
    -- An id names one grant of a method, so no later one has it either.
    · intro hsame
      have hdistinct := hkept.distinct unregistration.method
      rw [hsplit, List.filterMap_append, List.filterMap_cons_some hid] at hdistinct
      have hlast := (List.nodup_cons.mp (List.nodup_append.mp hdistinct).2.1).1
      exact hlast (List.mem_filterMap.mpr ⟨other, hlater, hsame⟩)
  · intro method
    rw [hresult]
    split
    · rename_i hempty
      rw [grantsOf_clear, hempty]
    · rw [grantsOf_put]
  · rw [hresult]
    split <;> rfl

/-- After any changes the grants are in order: the methods ascend, each has a grant, which stands
under its own method, no id stands twice under one method, and as long as the server has not
answered the handshake nothing is granted. The methods are those for which any grant is enough. What
is refused changes nothing, and what is taken back is one grant. -/
theorem wellKept_run (changes : List (FileTree × Change)) :
    (afterChanges changes).WellKept ∧
    (∀ files method, (afterChanges changes).check files method .empty = true ↔
      method ∈ (afterChanges changes).methods) ∧
    (∀ files step, ((afterChanges changes).change files step).2 = false →
      ((afterChanges changes).change files step).1 = afterChanges changes) ∧
    (∀ unregistration,
      (((afterChanges changes).remove unregistration).2 = true ↔
        ∃ grant ∈ (afterChanges changes).grantsOf unregistration.method,
          grant.id = some unregistration.id) ∧
      (((afterChanges changes).remove unregistration).2 = true →
        TakesBack unregistration (afterChanges changes)
          ((afterChanges changes).remove unregistration).1)) := by
  have hkept : (afterChanges changes).WellKept :=
    Run.final_induction _ _ WellKept.empty (fun _ entry hkept => hkept.change entry.2) changes
  exact ⟨hkept, hkept.check_empty, fun _ _ => change_of_refused,
    fun _ => ⟨remove_eq_true_iff, hkept.takesBack⟩⟩

end Registry

end LanguageClient
