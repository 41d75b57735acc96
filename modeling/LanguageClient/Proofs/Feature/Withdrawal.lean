import LanguageClient.Proofs.Feature.Upkeep

/-!
# Registrations that are taken back at once

A server takes a registration back under the id of the registration. The grant is kept under the id
that the options carry, if they carry one. So a registration whose id is new to its method can be
taken back exactly if its options name no other id, and then all grants are as they were before.
-/

namespace LanguageClient

/-- The id that the options of a registration carry, if they can be read and have one. -/
def Registration.ownId? (registration : Registration) : Option String := do
  let schema ← OptionsSchema.ofMethod? registration.method
  let options ← schema.parse? (registration.options.getD .null)
  options.ownId?

/-- The id in the options counts before the one of the registration. -/
theorem Grant.ofRegistration_eq_ok {registration : Registration} {grant : Grant}
    (hgrant : ofRegistration registration = .ok grant) :
    grant.method = registration.method ∧
      grant.id = some (registration.ownId?.getD registration.id) := by
  unfold ofRegistration at hgrant
  split at hgrant
  · cases hgrant
  · rename_i schema hschema
    split at hgrant
    · cases hgrant
    · rename_i options hoptions
      have hown : registration.ownId? = options.ownId? := by
        simp [Registration.ownId?, hschema, hoptions]
      cases hgrant
      refine ⟨rfl, ?_⟩
      rw [hown]
      cases hid : options.ownId? <;> simp [ofOptions, hid]

namespace Registry

variable {files : FileTree} {registry after : Registry} {registration : Registration}

/-- A registration is accepted as a grant of its method, whose id no other registration decides. -/
theorem add_grants (hadd : registry.add files registration = .ok after) :
    ∃ grant : Grant, grant.id = some (registration.ownId?.getD registration.id) ∧
      ∀ method, after.grantsOf method =
        if method = registration.method then
          replaceOrAppend grant (registry.grantsOf registration.method)
        else registry.grantsOf method := by
  obtain ⟨-, grant, hgrant, rfl⟩ := add_eq_ok hadd
  obtain ⟨hmethod, hid⟩ := Grant.ofRegistration_eq_ok hgrant
  refine ⟨grant, hid, fun method => ?_⟩
  rw [← hmethod]
  exact grantsOf_put registry grant.method method _

end Registry

namespace Sample

/-- A registry whose server has granted one feature in its answer to the handshake. -/
def registry : Registry :=
  Registry.empty.setCapabilities files ⟨none, none, [(.hover, .bool true)], none, none⟩

/-- A registration of the same feature, whose options carry an id. -/
def hover (id ownId : String) : Registration :=
  ⟨id, "textDocument/hover", some (.obj [("id", .str ownId)])⟩

/-- The grant of the handshake has no id. -/
theorem hover_fresh (id ownId : String) :
    ∀ grant ∈ registry.grantsOf (hover id ownId).method, grant.id ≠ some (hover id ownId).id := by
  have hgranted : (registry.grantsOf "textDocument/hover").map Grant.id = [none] := by decide
  intro grant hgrant hid
  have hmem : grant.id ∈ (registry.grantsOf "textDocument/hover").map Grant.id :=
    List.mem_map_of_mem hgrant
  rw [hgranted, hid] at hmem
  simp at hmem

end Sample

namespace Registry

variable {files : FileTree} {registry after : Registry} {registration : Registration}

/-- A registration that is taken back right after it was accepted, under an id that was new to its
method: it is found exactly if its options carry no other id of their own. Then every method has the
grants that it had before, and otherwise nothing changes. -/
theorem remove_accepted (hadd : registry.add files registration = .ok after)
    (hfresh : ∀ grant ∈ registry.grantsOf registration.method, grant.id ≠ some registration.id) :
    ((after.remove ⟨registration.id, registration.method⟩).2 = true ↔
      ∀ id, registration.ownId? = some id → id = registration.id) ∧
    ((after.remove ⟨registration.id, registration.method⟩).2 = true → ∀ method,
      (after.remove ⟨registration.id, registration.method⟩).1.grantsOf method =
        registry.grantsOf method) ∧
    ((after.remove ⟨registration.id, registration.method⟩).2 = false →
      (after.remove ⟨registration.id, registration.method⟩).1 = after) := by
  obtain ⟨grant, hid, hgrants⟩ := add_grants hadd
  have hown := hgrants registration.method
  rw [if_pos rfl] at hown
  by_cases hsame : registration.ownId?.getD registration.id = registration.id
  · rw [hsame] at hid
    -- No earlier grant has the id, so the new one stands behind all of them.
    have hlast : after.grantsOf registration.method =
        registry.grantsOf registration.method ++ [grant] := by
      rcases replaceOrAppend_cases grant (registry.grantsOf registration.method) with
        ⟨before, other, later, hsplit, hother, -, -⟩ | ⟨-, hresult⟩
      · exact absurd (hother.trans hid) (hfresh other (by rw [hsplit]; simp))
      · rw [hown, hresult]
    have hremoved := remove_of_split ⟨registration.id, registration.method⟩
      hlast hid hfresh
    rw [List.append_nil] at hremoved
    rw [hremoved]
    refine ⟨⟨fun _ id howned => ?_, fun _ => rfl⟩, fun _ method => ?_, fun hfalse => ?_⟩
    · rwa [howned] at hsame
    · by_cases hmethod : method = registration.method
      · subst hmethod
        split
        · rename_i hnone
          rw [grantsOf_clear, if_pos rfl, hnone]
        · rw [grantsOf_put, if_pos rfl]
      · split
        · rw [grantsOf_clear, if_neg hmethod, hgrants, if_neg hmethod]
        · rw [grantsOf_put, if_neg hmethod, hgrants, if_neg hmethod]
    · cases hfalse
  -- The grant stands under the id in the options, and no other one has that of the registration.
  · have hforeign : ∀ other ∈ after.grantsOf registration.method,
        other.id ≠ some registration.id := by
      intro other hother
      rw [hown] at hother
      rcases mem_replaceOrAppend hother with rfl | hearlier
      · rw [hid]
        exact fun heq => hsame (Option.some.inj heq)
      · exact hfresh other hearlier
    rw [remove_of_not_mem ⟨registration.id, registration.method⟩ hforeign]
    refine ⟨⟨fun htrue => ?_, fun honly => ?_⟩, fun htrue => ?_, fun _ => rfl⟩
    · cases htrue
    · cases howned : registration.ownId? with
      | none => exact absurd (by rw [howned]; rfl) hsame
      | some id => exact absurd (by rw [howned]; exact honly id howned) hsame
    · cases htrue

/-- Options that repeat the id of the registration do no harm. -/
theorem remove_accepted_hover :
    ∃ after, Sample.registry.add Sample.files (Sample.hover "h" "h") = .ok after ∧
      (after.remove ⟨"h", "textDocument/hover"⟩).2 = true ∧
      ∀ method, (after.remove ⟨"h", "textDocument/hover"⟩).1.grantsOf method =
        Sample.registry.grantsOf method := by
  obtain ⟨after, hadd⟩ :
      ∃ after, Sample.registry.add Sample.files (Sample.hover "h" "h") = .ok after := ⟨_, rfl⟩
  have htaken := remove_accepted hadd (Sample.hover_fresh "h" "h")
  have hremoved := htaken.1.mpr fun id hid => (Option.some.inj hid).symm
  exact ⟨after, hadd, hremoved, htaken.2.1 hremoved⟩

/-- A registration that is accepted, and whose id is new to its method, is not always taken back
under that id. -/
theorem not_taken_back_of_ownId :
    ¬ ∀ (files : FileTree) (registry after : Registry) (registration : Registration),
      registry.isReady = true → registry.add files registration = .ok after →
      (∀ grant ∈ registry.grantsOf registration.method, grant.id ≠ some registration.id) →
      (after.remove ⟨registration.id, registration.method⟩).2 = true ∧
      ∀ method, (after.remove ⟨registration.id, registration.method⟩).1.grantsOf method =
        registry.grantsOf method := by
  intro hall
  obtain ⟨after, hadd, hkept⟩ :
      ∃ after, Sample.registry.add Sample.files (Sample.hover "h" "own") = .ok after ∧
        (after.remove ⟨"h", "textDocument/hover"⟩).2 = false := ⟨_, rfl, by decide⟩
  have htaken := (hall _ _ _ _ rfl hadd (Sample.hover_fresh "h" "own")).1
  exact Bool.false_ne_true (hkept.symm.trans htaken)

end Registry

end LanguageClient
