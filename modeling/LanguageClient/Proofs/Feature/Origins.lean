import LanguageClient.Proofs.Feature.Upkeep

/-!
# Grants of either origin

A server grants a feature in its answer to the handshake or by a later registration. The same raw
options lead to the same grant on both ways, up to the id, and so to the same answers. They part
only where the options cannot be read: the registration is refused, while the answer to the
handshake still grants the method, but nothing that its options would have to say.
-/

namespace LanguageClient

/-- Whether a requirement is about documents only, or lists nothing. -/
def Requirement.IsModest : Requirement → Prop
  | .textDocuments _ => True
  | .fileOperations uris => uris = []
  | .semanticTokens modes => modes = []
  | .codeActions kinds => kinds = []
  | .workspaceCommands commands => commands = []
  | .syncKind _ | .includeText _ | .resolve _ => False

namespace Grant

/-- Two grants of one method say the same of everything but the id. -/
structure Alike (grant other : Grant) : Prop where
  method : grant.method = other.method
  selector : grant.selector = other.selector
  options : grant.options = other.options

section Answers

variable {grant other : Grant}

/-- Whether a need is held does not depend on the id. -/
theorem Alike.holds_eq (halike : grant.Alike other) (files : FileTree) (need : Need) :
    grant.holds files need = other.holds files need := by
  cases need <;> simp only [holds, appliesTo, halike.selector, halike.options]

/-- Whether this can be told does not depend on the id either. -/
theorem Alike.failsOn_eq (halike : grant.Alike other) (files : FileTree) (need : Need) :
    grant.failsOn files need = other.failsOn files need := by
  cases need <;> simp only [failsOn, halike.selector, halike.options]

/-- Grants that differ in the id only meet the same requests. -/
theorem Alike.isMet_eq (halike : grant.Alike other) (files : FileTree) (request : FeatureRequest) :
    request.isMet files [grant] = request.isMet files [other] := by
  have hholds : grant.holds files = other.holds files := funext (halike.holds_eq files)
  simp only [FeatureRequest.isMet_eq, List.any_cons, List.any_nil, hholds, List.isEmpty_cons]

/-- Grants that differ in the id only fail on the same requests. -/
theorem Alike.isMet?_eq (halike : grant.Alike other) (files : FileTree)
    (request : FeatureRequest) : request.isMet? files [grant] = request.isMet? files [other] := by
  have hfails (needs : List Need) : ([grant].any fun grant => needs.any (grant.failsOn files)) =
      [other].any fun grant => needs.any (grant.failsOn files) := by
    simp only [List.any_cons, List.any_nil, funext (halike.failsOn_eq files)]
  unfold FeatureRequest.isMet?
  dsimp only
  rw [hfails, halike.isMet_eq files]

/-- A grant with raw options holds that it applies to a document, and nothing else. -/
theorem isMet_plain (files : FileTree) (method : String) (raw : Json) (request : FeatureRequest) :
    request.isMet files [⟨none, method, none, .plain raw⟩] = true ↔
      ∀ requirement ∈ request.requirements, requirement.IsModest := by
  have hheld (requirement : Requirement) :
      (∀ need ∈ requirement.needs, ∃ grant ∈ [(⟨none, method, none, .plain raw⟩ : Grant)],
        grant.holds files need = true) ↔ requirement.IsModest := by
    cases requirement with
    | resolve support =>
      cases support <;> simp [Requirement.needs, holds, Requirement.IsModest,
        ResolveSupport.switch?]
    | _ =>
      simp [Requirement.needs, holds, appliesTo, Requirement.IsModest,
        List.eq_nil_iff_forall_not_mem]
  rw [FeatureRequest.isMet_iff, and_iff_right (List.cons_ne_nil _ _)]
  exact forall₂_congr fun requirement _ => hheld requirement

/-- Whether a grant with raw options meets a request can always be told. -/
theorem isMet?_plain (files : FileTree) (method : String) (raw : Json) (request : FeatureRequest) :
    request.isMet? files [⟨none, method, none, .plain raw⟩] =
      some (request.isMet files [⟨none, method, none, .plain raw⟩]) := by
  refine if_neg ?_
  rw [List.any_cons, List.any_nil, Bool.or_false, List.any_eq_true]
  rintro ⟨need, -, hfails⟩
  cases need <;> simp [failsOn] at hfails

end Answers

/-- Anything but null and a refusal grants something. -/
theorem isGranted_of_ne {raw : Json} (hnull : raw ≠ .null) (hfalse : raw ≠ .bool false) :
    isGranted raw = true := by
  unfold isGranted
  split <;> first | rfl | contradiction

/-- Of grants of different methods only one stands under its method. -/
theorem filter_method_eq_singleton {grants : List Grant} (hnodup : (grants.map Grant.method).Nodup)
    {grant : Grant} (hmem : grant ∈ grants) :
    grants.filter (·.method == grant.method) = [grant] := by
  obtain ⟨before, after, rfl⟩ := List.append_of_mem hmem
  rw [List.map_append, List.map_cons, List.nodup_append, List.nodup_cons] at hnodup
  obtain ⟨-, ⟨hafter, -⟩, hbefore⟩ := hnodup
  have hnone (others : List Grant) (hothers : ∀ other ∈ others, other.method ≠ grant.method) :
      others.filter (·.method == grant.method) = [] :=
    List.filter_eq_nil_iff.mpr fun other hother => by simpa using hothers other hother
  rw [List.filter_append, List.filter_cons, hnone before, hnone after]
  · simp
  · rintro other hother heq
    exact hafter (heq ▸ List.mem_map_of_mem hother)
  · intro other hother
    exact hbefore _ (List.mem_map_of_mem hother) _ List.mem_cons_self

/-- A method that the answer to the handshake can grant can be registered too, in the same form. -/
theorem ofMethod?_static {capability : StaticCapability}
    (hcapability : capability ∈ StaticCapability.all) :
    OptionsSchema.ofMethod? capability.method = some capability.schema := by
  have hall : ∀ capability ∈ StaticCapability.all,
      OptionsSchema.ofMethod? capability.method = some capability.schema := by
    decide +kernel
  exact hall capability hcapability

/-- The grant that the answer to the handshake makes of the value of a capability. -/
def ofAnswer (capability : StaticCapability) (raw : Json) : Grant :=
  ofOptions none capability.method ((capability.schema.parse? raw).getD (.plain raw))

/-- The only grant of a method in the answer to the handshake is that of its capability. -/
theorem grantsOf_answer {capability : StaticCapability}
    (hcapability : capability ∈ StaticCapability.all) {capabilities : ServerCapabilities}
    {raw : Json} (hraw : capability.value? capabilities = some raw)
    (hgranted : isGranted raw = true) (files : FileTree) (registry : Registry) :
    (registry.setCapabilities files capabilities).grantsOf capability.method =
      [ofAnswer capability raw] := by
  have hstatic : ofStatic? capabilities capability = some (ofAnswer capability raw) := by
    simp [ofStatic?, hraw, hgranted, ofAnswer]
  have hmem : ofAnswer capability raw ∈ ofCapabilities capabilities := by
    refine List.mem_append_left _ (List.mem_append_right _ ?_)
    exact List.mem_filterMap.mpr ⟨capability, hcapability, hstatic⟩
  rw [Registry.grantsOf_setCapabilities]
  exact filter_method_eq_singleton (nodup_methods_ofCapabilities capabilities) hmem

section Registered

variable {capability : StaticCapability} {raw : Json} {options : RegistrationOptions}

/-- Options that can be read are read alike in the answer to the handshake. -/
theorem ofAnswer_of_parse (hparse : capability.schema.parse? raw = some options) :
    ofAnswer capability raw = ofOptions none capability.method options := by
  rw [ofAnswer, hparse, Option.getD_some]

/-- Options that cannot be read are kept raw in the answer to the handshake. -/
theorem ofAnswer_of_not_parse (hparse : capability.schema.parse? raw = none) :
    ofAnswer capability raw = ⟨none, capability.method, none, .plain raw⟩ := by
  rw [ofAnswer, hparse, Option.getD_none]
  rfl

/-- What is registered for the method of a capability is read in the form of the capability. -/
theorem ofRegistration_static (hcapability : capability ∈ StaticCapability.all) (raw : Json)
    (id : String) :
    ofRegistration ⟨id, capability.method, some raw⟩ =
      match capability.schema.parse? raw with
      | none => .error (.invalidOptions capability.method)
      | some options => .ok (ofOptions (some id) capability.method options) := by
  cases hparse : capability.schema.parse? raw with
  | none => simp only [ofRegistration, ofMethod?_static hcapability, Option.getD_some, hparse]
  | some options =>
    simp only [ofRegistration, ofMethod?_static hcapability, Option.getD_some, hparse]

/-- The id of the caller does not show in anything but the id of the grant. -/
theorem alike_ofOptions (id other : Option String) (method : String)
    (options : RegistrationOptions) :
    (ofOptions id method options).Alike (ofOptions other method options) :=
  ⟨rfl, rfl, rfl⟩

end Registered

end Grant

namespace Registry

variable {files : FileTree} {registry other : Registry} {method : String}

/-- Two registries whose only grants of a method are alike answer alike for it. -/
theorem check_eq_of_alike {grant alike : Grant} (halike : grant.Alike alike)
    (hgrant : registry.grantsOf method = [grant]) (hother : other.grantsOf method = [alike])
    (request : FeatureRequest) :
    registry.check files method request = other.check files method request ∧
      registry.check? files method request = other.check? files method request := by
  rw [check, check, check?, check?, hgrant, hother]
  exact ⟨halike.isMet_eq files request, halike.isMet?_eq files request⟩

/-- A registration that is accepted for a method without grants is the only one of it. -/
theorem add_first {registration : Registration} {grant : Grant} (hready : registry.isReady = true)
    (hgrant : Grant.ofRegistration registration = .ok grant)
    (hnone : registry.grantsOf grant.method = []) :
    ∃ after, registry.add files registration = .ok after ∧
      after.grantsOf grant.method = [grant] := by
  refine ⟨_, by rw [add, hready, hgrant]; rfl, ?_⟩
  have hput := grantsOf_put registry grant.method grant.method
    (replaceOrAppend grant (registry.grantsOf grant.method))
  rw [if_pos rfl] at hput
  refine hput.trans ?_
  rw [hnone, replaceOrAppend]

/-- A registration whose options cannot be read is refused. -/
theorem add_unreadable {registration : Registration} {error : FeatureError}
    (hready : registry.isReady = true)
    (herror : Grant.ofRegistration registration = .error error) :
    registry.add files registration = .error error := by
  rw [add, hready, herror]
  rfl

/-- Nor does it change anything, at whatever time it comes. -/
theorem change_unreadable {registration : Registration} {error : FeatureError}
    (herror : Grant.ofRegistration registration = .error error) :
    registry.change files (.add registration) = (registry, false) := by
  cases hready : registry.isReady with
  | false => simp [change, add, hready]
  | true => simp [change, add_unreadable hready herror]

/-- The value of a capability grants the method of the capability the same way in the answer to the
handshake and as the options of a registration, if it can be read: the two grants differ at most in
the id, and a registry that has only one of them answers every request as if it had the other. A
value that cannot be read is refused as a registration and changes nothing; in the answer to the
handshake it is kept raw, and meets the requests that ask for documents or for nothing. -/
theorem check_of_either_origin {capability : StaticCapability}
    (hcapability : capability ∈ StaticCapability.all) {raw : Json} (hnull : raw ≠ .null)
    (hfalse : raw ≠ .bool false) (id : String) :
    (∀ files capabilities (registry : Registry), capability.value? capabilities = some raw →
      (registry.setCapabilities files capabilities).grantsOf capability.method =
        [Grant.ofAnswer capability raw]) ∧
    (∀ options, capability.schema.parse? raw = some options →
      ∃ registered : Grant,
        (∀ files (registry : Registry), registry.isReady = true →
          registry.grantsOf capability.method = [] →
          ∃ after, registry.add files ⟨id, capability.method, some raw⟩ = .ok after ∧
            after.grantsOf capability.method = [registered]) ∧
        (Grant.ofAnswer capability raw).Alike registered ∧
        registered.options = options ∧
        (Grant.ofAnswer capability raw).id = options.ownId? ∧
        registered.id = some (options.ownId?.getD id) ∧
        ∀ files (answered other : Registry),
          answered.grantsOf capability.method = [Grant.ofAnswer capability raw] →
          other.grantsOf capability.method = [registered] → ∀ request,
            answered.check files capability.method request =
              other.check files capability.method request ∧
            answered.check? files capability.method request =
              other.check? files capability.method request) ∧
    (capability.schema.parse? raw = none →
      (∀ files (registry : Registry), registry.isReady = true →
        registry.add files ⟨id, capability.method, some raw⟩ =
          .error (.invalidOptions capability.method)) ∧
      (∀ files (registry : Registry),
        registry.change files (.add ⟨id, capability.method, some raw⟩) = (registry, false)) ∧
      Grant.ofAnswer capability raw = ⟨none, capability.method, none, .plain raw⟩ ∧
      ∀ files (answered : Registry),
        answered.grantsOf capability.method = [Grant.ofAnswer capability raw] → ∀ request,
          (answered.check files capability.method request = true ↔
            ∀ requirement ∈ request.requirements, requirement.IsModest) ∧
          answered.check? files capability.method request =
            some (answered.check files capability.method request)) := by
  have hregistered := Grant.ofRegistration_static hcapability raw id
  refine ⟨fun files capabilities registry hraw => ?_, fun options hparse => ?_, fun hparse => ?_⟩
  · exact Grant.grantsOf_answer hcapability hraw (Grant.isGranted_of_ne hnull hfalse) files registry
  · rw [hparse] at hregistered
    have hanswer := Grant.ofAnswer_of_parse hparse
    have halike := Grant.alike_ofOptions none (some id) capability.method options
    rw [hanswer]
    refine ⟨_, fun files registry hready hnone => add_first hready hregistered hnone, halike, rfl,
      ?_, ?_, fun files answered other => check_eq_of_alike halike⟩
    · cases hown : options.ownId? <;> simp [Grant.ofOptions, hown]
    · cases hown : options.ownId? <;> simp [Grant.ofOptions, hown]
  · rw [hparse] at hregistered
    have hanswer := Grant.ofAnswer_of_not_parse hparse
    rw [hanswer]
    refine ⟨fun files registry hready => add_unreadable hready hregistered,
      fun files registry => change_unreadable hregistered, rfl,
      fun files answered hanswered request => ?_⟩
    rw [check, check?, hanswered]
    exact ⟨Grant.isMet_plain files capability.method raw request,
      Grant.isMet?_plain files capability.method raw request⟩

/-- Hover is granted with options that carry an id, and registered with the same options under
another id; granted with a word in place of options, it still meets a request for a document. -/
theorem check_of_either_origin_hover :
    let hover : StaticCapability := ⟨"textDocument/hover", .textDocument, .provider .hover⟩
    let options : Json := .obj [("id", .str "own")]
    (∃ registered : Grant, registered.id = some "own" ∧ ∀ files (answered other : Registry),
      answered.grantsOf hover.method = [Grant.ofAnswer hover options] →
      other.grantsOf hover.method = [registered] → ∀ request,
        answered.check files hover.method request = other.check files hover.method request) ∧
    (Registry.empty.setCapabilities Sample.files ⟨none, none, [(.hover, .str "on")], none,
        none⟩).check Sample.files hover.method (.forDocument "file:///w/a.py" "python") = true := by
  intro hover options
  have hhover : hover ∈ StaticCapability.all := by simp [hover, StaticCapability.all]
  constructor
  · have hnull : options ≠ .null := by simp [options]
    obtain ⟨-, hread, -⟩ := check_of_either_origin hhover hnull (by simp [options]) "other"
    obtain ⟨registered, -, -, -, -, hid, hsame⟩ := hread _ rfl
    exact ⟨registered, hid, fun files answered other hanswered hother request =>
      (hsame files answered other hanswered hother request).1⟩
  · have hnull : Json.str "on" ≠ .null := by simp
    obtain ⟨hanswer, -, hraw⟩ := check_of_either_origin hhover hnull (by simp) "other"
    obtain ⟨-, -, -, hmet⟩ := hraw rfl
    refine (hmet _ _ (hanswer _ _ _ rfl) _).1.mpr fun requirement hrequirement => ?_
    rw [List.mem_singleton.mp hrequirement]
    trivial

end Registry

end LanguageClient
