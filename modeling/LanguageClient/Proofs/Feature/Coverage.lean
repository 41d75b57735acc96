import LanguageClient.Feature.Registry
import LanguageClient.Proofs.Fields
import Mathlib.Data.List.Induction

/-!
# More grants meet more requests

Each need of a request is held by some grant, so a request that the grants of a method meet is also
met by any larger set of grants. Taking a grant back therefore never meets a request that was not
met before, and a registration leaves the requests for all other methods as they were.
-/

namespace LanguageClient

namespace FeatureRequest

variable {files : FileTree} {request : FeatureRequest} {grants : List Grant}

/-- A flag is raised if some grant holds its need. -/
theorem flags_eq (files : FileTree) (request : FeatureRequest) (grants : List Grant) :
    request.flags files grants = request.requirements.map fun requirement =>
      requirement.needs.map fun need => grants.any fun grant => grant.holds files need := by
  induction grants using List.reverseRecOn with
  | nil => rfl
  | append_singleton grants grant ih =>
    rw [flags, List.foldl_append, List.foldl_cons, List.foldl_nil, ← flags, ih,
      List.zipWith_map_right, List.zipWith_self]
    refine List.map_congr_left fun requirement _ => ?_
    rw [Requirement.raise, List.zipWith_map_left, List.zipWith_self]
    simp

/-- A request is met if there is a grant at all and some grant holds each of its needs. -/
theorem isMet_eq (files : FileTree) (request : FeatureRequest) (grants : List Grant) :
    request.isMet files grants = (!grants.isEmpty && request.requirements.all fun requirement =>
      requirement.needs.all fun need => grants.any fun grant => grant.holds files need) := by
  rw [isMet, flags_eq, List.all_flatten, List.all_map]
  simp only [Function.comp_def, List.all_map, id_eq]

theorem isMet_iff : request.isMet files grants = true ↔ grants ≠ [] ∧
    ∀ requirement ∈ request.requirements, ∀ need ∈ requirement.needs,
      ∃ grant ∈ grants, grant.holds files need = true := by
  simp only [isMet_eq, Bool.and_eq_true, Bool.not_eq_true', List.isEmpty_eq_false_iff,
    List.all_eq_true, List.any_eq_true, ne_eq]

/-- A request that some grants meet is met by any grants among which these are. -/
theorem isMet_of_subset {fewer : List Grant} (hsubset : fewer ⊆ grants)
    (hmet : request.isMet files fewer = true) : request.isMet files grants = true := by
  rw [isMet_iff] at hmet ⊢
  obtain ⟨hnonempty, hheld⟩ := hmet
  constructor
  · obtain ⟨grant, hgrant⟩ := List.exists_mem_of_ne_nil fewer hnonempty
    exact List.ne_nil_of_mem (hsubset hgrant)
  · intro requirement hrequirement need hneed
    obtain ⟨grant, hgrant, hholds⟩ := hheld requirement hrequirement need hneed
    exact ⟨grant, hsubset hgrant, hholds⟩

end FeatureRequest

namespace Registry

variable {files : FileTree} {registry : Registry}

/-- Whether a request is met depends on the grants of its method only. -/
theorem check_congr {other : Registry} {method : String} (request : FeatureRequest)
    (hgrants : other.grantsOf method = registry.grantsOf method) :
    other.check files method request = registry.check files method request := by
  unfold check
  rw [hgrants]

/-- Taking a grant back leaves each method with some of the grants that it had. -/
theorem grantsOf_remove_subset (unregistration : Unregistration) (method : String) :
    (registry.remove unregistration).1.grantsOf method ⊆ registry.grantsOf method := by
  unfold remove
  dsimp only
  split
  · by_cases hmethod : method = unregistration.method
    · subst hmethod
      split <;> simp only [grantsOf]
      · rw [lookup_filter_ne, if_pos rfl]
        exact List.nil_subset _
      · rw [lookup_insertField, if_pos rfl]
        exact List.eraseP_subset
    · split <;> simp only [grantsOf]
      · rw [lookup_filter_ne, if_neg hmethod]
        exact List.Subset.refl _
      · rw [lookup_insertField, if_neg hmethod]
        exact List.Subset.refl _
  · exact List.Subset.refl _

/-- Taking a grant back meets no request that was not met before. -/
theorem check_of_check_remove {unregistration : Unregistration} {method : String}
    {request : FeatureRequest}
    (hmet : (registry.remove unregistration).1.check files method request = true) :
    registry.check files method request = true :=
  FeatureRequest.isMet_of_subset (grantsOf_remove_subset unregistration method) hmet

/-- Taking a grant back leaves the entries, the signals and the numbering of entries alone. -/
theorem remove_keeps_book (registry : Registry) (unregistration : Unregistration) :
    (registry.remove unregistration).1.waiters = registry.waiters ∧
    (registry.remove unregistration).1.signals = registry.signals ∧
    (registry.remove unregistration).1.nextWaiter = registry.nextWaiter := by
  unfold remove
  dsimp only
  split <;> exact ⟨rfl, rfl, rfl⟩

/-- A registration that is accepted puts grants of one method in, and then signals the entries of
that method which are met now. -/
theorem add_eq_signalMet {registration : Registration} {after : Registry}
    (hadd : registry.add files registration = .ok after) :
    ∃ (method : String) (grants : List Grant),
      after = signalMet files (some method)
        { registry with grants := insertField method grants registry.grants } := by
  unfold add at hadd
  split at hadd
  · cases hadd
  · split at hadd
    · cases hadd
    · rename_i grant _
      exact ⟨grant.method, _, (Except.ok.inj hadd).symm⟩

/-- Grants of one method that are put in leave every other method as it was. -/
theorem check_insertField {name method : String} (grants : List Grant) (request : FeatureRequest)
    (hne : method ≠ name) :
    ({ registry with grants := insertField name grants registry.grants } : Registry).check files
      method request = registry.check files method request := by
  apply check_congr
  simp only [grantsOf, lookup_insertField, if_neg hne]

end Registry

end LanguageClient
