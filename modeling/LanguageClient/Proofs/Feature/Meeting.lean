import LanguageClient.Proofs.Feature.Withdrawal

/-!
# What it means that a request is met

A request is put together from requirements, of which the last one under each key counts. The grants
of a method meet it if there is one, and if each need is held by some grant. So neither the order of
the grants matters nor the order in which the keys were added, a list asks for each of its elements,
and one more grant takes nothing away. That it cannot be told whether a request is met also depends
on its needs and on the grants only, in whatever order they stand.
-/

namespace LanguageClient

namespace Requirement

/-- The requirements that ask for one need of the requirement each. -/
def alone : Requirement → List Requirement
  | .textDocuments documents => documents.map fun document => .textDocuments [document]
  | .syncKind kind => [.syncKind kind]
  | .includeText included => [.includeText included]
  | .fileOperations uris => uris.map fun uri => .fileOperations [uri]
  | .semanticTokens modes => modes.map fun mode => .semanticTokens [mode]
  | .codeActions kinds => kinds.map fun kind => .codeActions [kind]
  | .workspaceCommands commands => commands.map fun command => .workspaceCommands [command]
  | .resolve support => [.resolve support]

/-- Together they ask for the same. -/
theorem mem_needs_iff {requirement : Requirement} {need : Need} :
    need ∈ requirement.needs ↔ ∃ single ∈ requirement.alone, need ∈ single.needs := by
  cases requirement <;> simp [alone, needs, eq_comm]

end Requirement

namespace FeatureRequest

/-- The request to which requirements are added, one after the other. -/
def ofList (added : List Requirement) : FeatureRequest :=
  added.foldl add empty

/-- The requirement that was added last under a key. -/
def last? (key : RequirementKey) (added : List Requirement) : Option Requirement :=
  (added.filter (·.key = key)).getLast?

/-- Everything that a request asks for. -/
def needs (request : FeatureRequest) : List Need :=
  request.requirements.flatMap Requirement.needs

section Requirements

variable {requirement other : Requirement} {requirements added : List Requirement}

/-- No two requirements have the same key. -/
def AreKeyed (requirements : List Requirement) : Prop :=
  requirements.Pairwise fun requirement other => requirement.key ≠ other.key

theorem last?_concat (key : RequirementKey) (added : List Requirement) (requirement : Requirement) :
    last? key (added ++ [requirement]) =
      if requirement.key = key then some requirement else last? key added := by
  rw [last?, last?, List.filter_append, List.filter_singleton]
  by_cases hkey : requirement.key = key <;> simp [hkey]

theorem key_of_last? {key : RequirementKey} (hlast : last? key added = some requirement) :
    requirement.key = key := by
  have hmem := List.mem_of_getLast? hlast
  simpa using (List.mem_filter.mp hmem).2

/-- Under its own key there is the new requirement, and under all others what was there. -/
theorem mem_insert (hkeyed : AreKeyed requirements) : other ∈ insert requirement requirements ↔
    if other.key = requirement.key then other = requirement else other ∈ requirements := by
  induction requirements with
  | nil =>
    rw [insert, List.mem_singleton]
    split
    · exact Iff.rfl
    · exact iff_of_false (by rintro rfl; contradiction) List.not_mem_nil
  | cons first rest ih =>
    obtain ⟨hfirst, hrest⟩ := List.pairwise_cons.mp hkeyed
    rw [insert]
    by_cases hplace : first.key = requirement.key
    · rw [if_pos hplace, List.mem_cons]
      split
      · rename_i hkey
        exact or_iff_left fun hmem => hfirst other hmem (hplace.trans hkey.symm)
      · rename_i hkey
        rw [List.mem_cons]
        refine or_congr_left (iff_of_false ?_ ?_)
        · rintro rfl
          exact hkey rfl
        · rintro rfl
          exact hkey hplace
    · rw [if_neg hplace, List.mem_cons, ih hrest, List.mem_cons]
      split
      · rename_i hkey
        refine or_iff_right ?_
        rintro rfl
        exact hplace hkey
      · exact Iff.rfl

theorem areKeyed_insert (hkeyed : AreKeyed requirements) (requirement : Requirement) :
    AreKeyed (insert requirement requirements) := by
  induction requirements with
  | nil => exact List.pairwise_singleton _ _
  | cons first rest ih =>
    obtain ⟨hfirst, hrest⟩ := List.pairwise_cons.mp hkeyed
    rw [insert]
    split
    · rename_i hplace
      exact .cons (fun other hother => hplace ▸ hfirst other hother) hrest
    · rename_i hplace
      refine .cons (fun other hother => ?_) (ih hrest)
      rw [mem_insert hrest] at hother
      split at hother
      · rw [hother]
        exact hplace
      · exact hfirst other hother

theorem areKeyed_ofList (added : List Requirement) : AreKeyed (ofList added).requirements := by
  induction added using List.reverseRecOn with
  | nil => exact .nil
  | append_singleton added requirement ih =>
    rw [ofList, List.foldl_append]
    exact areKeyed_insert ih requirement

/-- A request consists of the requirements that were added last under their keys. -/
theorem mem_ofList : requirement ∈ (ofList added).requirements ↔
    last? requirement.key added = some requirement := by
  induction added using List.reverseRecOn with
  | nil => exact iff_of_false List.not_mem_nil nofun
  | append_singleton added newest ih =>
    have hadded : (ofList (added ++ [newest])).requirements =
        insert newest (ofList added).requirements := by
      rw [ofList, List.foldl_append]
      rfl
    rw [hadded, mem_insert (areKeyed_ofList added), last?_concat, ih]
    by_cases hkey : newest.key = requirement.key
    · rw [if_pos hkey, if_pos hkey.symm, Option.some.injEq, eq_comm]
    · rw [if_neg hkey, if_neg (Ne.symm hkey)]

end Requirements

section Needs

variable {need : Need} {added : List Requirement}

/-- A request asks for the needs of the last requirement under each key. -/
theorem mem_needs_ofList : need ∈ (ofList added).needs ↔
    ∃ key requirement, last? key added = some requirement ∧ need ∈ requirement.needs := by
  rw [needs, List.mem_flatMap]
  constructor
  · rintro ⟨requirement, hmem, hneed⟩
    exact ⟨requirement.key, requirement, mem_ofList.mp hmem, hneed⟩
  · rintro ⟨key, requirement, hlast, hneed⟩
    obtain rfl := key_of_last? hlast
    exact ⟨requirement, mem_ofList.mpr hlast, hneed⟩

/-- The last requirement is asked for, and what was added under other keys. -/
theorem mem_needs_concat {requirement : Requirement} :
    need ∈ (ofList (added ++ [requirement])).needs ↔
      need ∈ (ofList (added.filter (·.key ≠ requirement.key))).needs ∨
        need ∈ requirement.needs := by
  have hothers (key : RequirementKey) : last? key (added.filter (·.key ≠ requirement.key)) =
      if requirement.key = key then none else last? key added := by
    rw [last?, last?, List.filter_filter]
    split
    · rename_i hkey
      simp [hkey]
    · rename_i hkey
      congr 1
      refine List.filter_congr fun other _ => ?_
      by_cases hother : other.key = key
      · simp [hother, Ne.symm hkey]
      · simp [hother]
  simp only [mem_needs_ofList, last?_concat, hothers]
  constructor
  · rintro ⟨key, last, hlast, hneed⟩
    split at hlast
    · obtain rfl := Option.some.inj hlast
      exact Or.inr hneed
    · rename_i hkey
      exact Or.inl ⟨key, last, by rwa [if_neg hkey], hneed⟩
  · rintro (⟨key, last, hlast, hneed⟩ | hneed)
    · split at hlast
      · cases hlast
      · rename_i hkey
        exact ⟨key, last, by rwa [if_neg hkey], hneed⟩
    · exact ⟨requirement.key, requirement, if_pos rfl, hneed⟩

theorem needs_singleton (requirement : Requirement) :
    (ofList [requirement]).needs = requirement.needs :=
  List.append_nil _

/-- The needs of the last requirement can be asked for one by one. -/
theorem mem_needs_divided {requirement : Requirement} :
    need ∈ (ofList (added ++ [requirement])).needs ↔
      need ∈ (ofList (added.filter (·.key ≠ requirement.key))).needs ∨
        ∃ part ∈ requirement.alone.map fun single => ofList [single], need ∈ part.needs := by
  rw [mem_needs_concat, Requirement.mem_needs_iff]
  simp only [List.mem_map, exists_exists_and_eq_and, needs_singleton]

end Needs

section Answers

variable {files : FileTree} {request : FeatureRequest} {grants : List Grant}

/-- A request is met if there is a grant and some grant holds each need. -/
theorem isMet_iff_needs : request.isMet files grants = true ↔ grants ≠ [] ∧
    ∀ need ∈ request.needs, ∃ grant ∈ grants, grant.holds files need = true := by
  simp only [isMet_iff, needs, List.mem_flatMap]
  refine and_congr_right fun _ => ⟨?_, ?_⟩
  · rintro hheld need ⟨requirement, hmem, hneed⟩
    exact hheld requirement hmem need hneed
  · intro hheld requirement hmem need hneed
    exact hheld need ⟨requirement, hmem, hneed⟩

/-- It cannot be told if this cannot be told of some grant and some need. -/
theorem isMet?_eq_none_iff : request.isMet? files grants = none ↔
    ∃ need ∈ request.needs, ∃ grant ∈ grants, grant.failsOn files need = true := by
  rw [isMet?, ← needs]
  simp only [List.any_eq_true, ite_eq_left_iff, reduceCtorEq, imp_false, not_not]
  constructor
  · rintro ⟨grant, hgrant, need, hneed, hfails⟩
    exact ⟨need, hneed, grant, hgrant, hfails⟩
  · rintro ⟨need, hneed, grant, hgrant, hfails⟩
    exact ⟨grant, hgrant, need, hneed, hfails⟩

/-- If it can be told, the answer is whether the request is met. -/
theorem isMet?_eq_some_iff {answer : Bool} : request.isMet? files grants = some answer ↔
    request.isMet? files grants ≠ none ∧ request.isMet files grants = answer := by
  rw [isMet?]
  split <;> simp

/-- A request is met, and this can be told, if there is a grant, some grant holds each need, and no
grant fails on one. -/
theorem isMet?_eq_true_iff : request.isMet? files grants = some true ↔ grants ≠ [] ∧
    ∀ need ∈ request.needs, (∃ grant ∈ grants, grant.holds files need = true) ∧
      ∀ grant ∈ grants, grant.failsOn files need = false := by
  rw [isMet?_eq_some_iff, ne_eq, isMet?_eq_none_iff, isMet_iff_needs]
  constructor
  · rintro ⟨hnone, hsome, hheld⟩
    refine ⟨hsome, fun need hneed => ⟨hheld need hneed, fun grant hgrant => ?_⟩⟩
    rw [← Bool.not_eq_true]
    exact fun hfails => hnone ⟨need, hneed, grant, hgrant, hfails⟩
  · rintro ⟨hsome, hheld⟩
    refine ⟨?_, hsome, fun need hneed => (hheld need hneed).1⟩
    rintro ⟨need, hneed, grant, hgrant, hfails⟩
    rw [(hheld need hneed).2 grant hgrant] at hfails
    cases hfails

variable {other : FeatureRequest} {others : List Grant}

/-- A request that is put together is met if some grant holds each need of the last requirement
under each key. -/
theorem isMet_ofList_iff {added : List Requirement} :
    (ofList added).isMet files grants = true ↔ grants ≠ [] ∧
      ∀ key requirement, last? key added = some requirement → ∀ need ∈ requirement.needs,
        ∃ grant ∈ grants, grant.holds files need = true := by
  rw [isMet_iff_needs]
  simp only [mem_needs_ofList]
  refine and_congr_right fun _ => ⟨?_, ?_⟩
  · intro hheld key requirement hlast need hneed
    exact hheld need ⟨key, requirement, hlast, hneed⟩
  · rintro hheld need ⟨key, requirement, hlast, hneed⟩
    exact hheld key requirement hlast need hneed

/-- It cannot be told if some grant fails on a need of the last requirement under a key. -/
theorem isMet?_ofList_eq_none_iff {added : List Requirement} :
    (ofList added).isMet? files grants = none ↔
      ∃ key requirement, last? key added = some requirement ∧ ∃ need ∈ requirement.needs,
        ∃ grant ∈ grants, grant.failsOn files need = true := by
  rw [isMet?_eq_none_iff]
  simp only [mem_needs_ofList]
  constructor
  · rintro ⟨need, ⟨key, requirement, hlast, hneed⟩, hfails⟩
    exact ⟨key, requirement, hlast, need, hneed, hfails⟩
  · rintro ⟨key, requirement, hlast, need, hneed, hfails⟩
    exact ⟨need, ⟨key, requirement, hlast, hneed⟩, hfails⟩

/-- What is asked of which grants decides the answer, in whatever order they stand. -/
theorem isMet?_congr (hneeds : ∀ need, need ∈ other.needs ↔ need ∈ request.needs)
    (hgrants : ∀ grant, grant ∈ others ↔ grant ∈ grants) :
    other.isMet files others = request.isMet files grants ∧
      other.isMet? files others = request.isMet? files grants := by
  have hempty : others = [] ↔ grants = [] := by
    rw [List.eq_nil_iff_forall_not_mem, List.eq_nil_iff_forall_not_mem]
    exact forall_congr' fun grant => not_congr (hgrants grant)
  have hmet : other.isMet files others = request.isMet files grants := by
    rw [Bool.eq_iff_iff, isMet_iff_needs, isMet_iff_needs]
    simp only [hneeds, hgrants, ne_eq, hempty]
  refine ⟨hmet, Option.ext fun answer => ?_⟩
  simp only [isMet?_eq_some_iff, ne_eq, isMet?_eq_none_iff, hmet, hneeds, hgrants]

/-- A request that is divided into others is met if all of them are. -/
theorem isMet?_divided {parts : List FeatureRequest} (hneeds : ∀ need,
      need ∈ request.needs ↔ need ∈ other.needs ∨ ∃ part ∈ parts, need ∈ part.needs) :
    (request.isMet files grants = true ↔ other.isMet files grants = true ∧
      ∀ part ∈ parts, part.isMet files grants = true) ∧
    (request.isMet? files grants = some true ↔ other.isMet? files grants = some true ∧
      ∀ part ∈ parts, part.isMet? files grants = some true) := by
  have hdivided (property : Need → Prop) :
      (grants ≠ [] ∧ ∀ need ∈ request.needs, property need) ↔
        (grants ≠ [] ∧ ∀ need ∈ other.needs, property need) ∧
        ∀ part ∈ parts, grants ≠ [] ∧ ∀ need ∈ part.needs, property need := by
    constructor
    · rintro ⟨hsome, hall⟩
      refine ⟨⟨hsome, fun need hneed => ?_⟩, fun part hpart => ⟨hsome, fun need hneed => ?_⟩⟩
      · exact hall need ((hneeds need).mpr (Or.inl hneed))
      · exact hall need ((hneeds need).mpr (Or.inr ⟨part, hpart, hneed⟩))
    · rintro ⟨⟨hsome, hother⟩, hparts⟩
      refine ⟨hsome, fun need hneed => ?_⟩
      rcases (hneeds need).mp hneed with hthere | ⟨part, hpart, hthere⟩
      · exact hother need hthere
      · exact (hparts part hpart).2 need hthere
  constructor
  · simpa only [isMet_iff_needs] using hdivided _
  · simpa only [isMet?_eq_true_iff] using hdivided _

end Answers

end FeatureRequest

namespace Registry

open FeatureRequest

variable {files : FileTree} {registry after : Registry} {registration : Registration}

/-- A registration under an id that its method does not have yet leaves all grants there. -/
theorem grantsOf_subset_add (hadd : registry.add files registration = .ok after)
    (hfresh : ∀ grant ∈ registry.grantsOf registration.method,
      grant.id ≠ some (registration.ownId?.getD registration.id)) (method : String) :
    registry.grantsOf method ⊆ after.grantsOf method := by
  obtain ⟨grant, hid, hgrants⟩ := add_grants hadd
  rw [hgrants]
  split
  · rename_i hmethod
    rcases replaceOrAppend_cases grant (registry.grantsOf registration.method) with
      ⟨before, replaced, later, hsplit, hreplaced, -, -⟩ | ⟨-, hresult⟩
    · exact absurd (hreplaced.trans hid) (hfresh replaced (by rw [hsplit]; simp))
    · rw [hresult, hmethod]
      exact List.subset_append_left _ _
  · exact List.Subset.refl _

/-- For every registry, every method and every request: it is met exactly if the method has a grant
and some grant holds each need of the last requirement under each key, and this can be told unless
one of the grants fails on one of these needs. So the order of the grants does not matter, nor that
in which requirements under different keys were added; a requirement is met exactly if there is a
grant and each need is met alone; and a grant that is added, in the place of no other one, takes
nothing away. -/
theorem check_iff_needs_held (files : FileTree) (registry : Registry) (method : String)
    (added : List Requirement) :
    (registry.check files method (ofList added) = true ↔ registry.grantsOf method ≠ [] ∧
      ∀ key requirement, last? key added = some requirement → ∀ need ∈ requirement.needs,
        ∃ grant ∈ registry.grantsOf method, grant.holds files need = true) ∧
    (registry.check? files method (ofList added) = none ↔
      ∃ key requirement, last? key added = some requirement ∧ ∃ need ∈ requirement.needs,
        ∃ grant ∈ registry.grantsOf method, grant.failsOn files need = true) ∧
    (∀ answer, registry.check? files method (ofList added) = some answer →
      registry.check files method (ofList added) = answer) ∧
    (∀ other : Registry, (other.grantsOf method).Perm (registry.grantsOf method) →
      other.check files method (ofList added) = registry.check files method (ofList added) ∧
      other.check? files method (ofList added) = registry.check? files method (ofList added)) ∧
    (∀ reordered : List Requirement,
      (∀ key, reordered.filter (·.key = key) = added.filter (·.key = key)) →
      registry.check files method (ofList reordered) =
        registry.check files method (ofList added) ∧
      registry.check? files method (ofList reordered) =
        registry.check? files method (ofList added)) ∧
    (∀ requirement,
      (registry.check files method (ofList (added ++ [requirement])) = true ↔
        registry.check files method (ofList (added.filter (·.key ≠ requirement.key))) = true ∧
        ∀ single ∈ requirement.alone, registry.check files method (ofList [single]) = true) ∧
      (registry.check? files method (ofList (added ++ [requirement])) = some true ↔
        registry.check? files method (ofList (added.filter (·.key ≠ requirement.key))) = some true ∧
        ∀ single ∈ requirement.alone,
          registry.check? files method (ofList [single]) = some true)) ∧
    (∀ other : Registry, registry.grantsOf method ⊆ other.grantsOf method →
      registry.check files method (ofList added) = true →
      other.check files method (ofList added) = true ∧
        other.check? files method (ofList added) ≠ some false) ∧
    (∀ registration after, registry.add files registration = .ok after →
      (∀ grant ∈ registry.grantsOf registration.method,
        grant.id ≠ some (registration.ownId?.getD registration.id)) →
      registry.check files method (ofList added) = true →
      after.check files method (ofList added) = true ∧
        after.check? files method (ofList added) ≠ some false) := by
  have hmore (other : Registry) (hsubset : registry.grantsOf method ⊆ other.grantsOf method)
      (hmet : registry.check files method (ofList added) = true) :
      other.check files method (ofList added) = true ∧
        other.check? files method (ofList added) ≠ some false := by
    have hstill := isMet_of_subset hsubset hmet
    refine ⟨hstill, fun htold => ?_⟩
    rw [(isMet?_eq_some_iff.mp htold).2] at hstill
    cases hstill
  refine ⟨isMet_ofList_iff, isMet?_ofList_eq_none_iff,
    fun answer htold => (isMet?_eq_some_iff.mp htold).2, fun other hperm => ?_,
    fun reordered hsame => ?_, fun requirement => ?_, hmore, fun registration after hadd hfresh =>
      hmore after (grantsOf_subset_add hadd hfresh method)⟩
  · exact isMet?_congr (fun _ => Iff.rfl) fun grant => hperm.mem_iff
  · refine isMet?_congr (fun need => ?_) fun _ => Iff.rfl
    simp only [mem_needs_ofList, last?, hsame]
  · have hdivided := @isMet?_divided files _ (registry.grantsOf method) _ _
      fun need => @mem_needs_divided need added requirement
    simp only [List.forall_mem_map] at hdivided
    exact hdivided

/-- A request for two documents, which the answer to the handshake meets, is still met after a
registration for the same method. -/
theorem check_hover_added :
    let added := [.textDocuments [], .textDocuments [⟨"file:///w/a", none⟩, ⟨"file:///w/b", none⟩]]
    Sample.registry.check Sample.files "textDocument/hover" (ofList added) = true ∧
    ∃ after, Sample.registry.add Sample.files (Sample.hover "h" "h") = .ok after ∧
      after.check Sample.files "textDocument/hover" (ofList added) = true := by
  intro added
  obtain ⟨after, hadd⟩ :
      ∃ after, Sample.registry.add Sample.files (Sample.hover "h" "h") = .ok after := ⟨_, rfl⟩
  obtain ⟨-, -, -, -, -, -, -, hstill⟩ :=
    check_iff_needs_held Sample.files Sample.registry "textDocument/hover" added
  have hmet : Sample.registry.check Sample.files "textDocument/hover" (ofList added) = true := by
    decide
  exact ⟨hmet, after, hadd, (hstill _ after hadd (Sample.hover_fresh "h" "h") hmet).1⟩

end Registry

end LanguageClient
