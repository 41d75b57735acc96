import LanguageClient.Proofs.Client.Handshaking

/-!
# Registrations beside the handshake

Whether a registration comes too early is decided by how far the caller of the handshake has come,
not by what the server has said. What is accepted after the registry was opened stays there while
the handshake goes on.
-/

namespace LanguageClient.Handshake

/-- Whether two grants have the same place: the later one replaces the earlier one. -/
def sharePlace (grant other : Grant) : Bool :=
  other.method == grant.method && other.id == grant.id

/-- What is left of the grants that were accepted, after one more deed of the reader. -/
def Deed.leave (standing : List Grant) : Deed → List Grant
  | .tried registration true none =>
    match Grant.ofRegistration registration with
    | .ok grant => standing.filter (fun other => !sharePlace grant other) ++ [grant]
    | .error _ => standing
  | .tried _ _ _ => standing
  | .withdrew unregistration => standing.filter fun other =>
    !(other.method == unregistration.method && other.id == some unregistration.id)

/-- The grants that were accepted since the handshake has opened the registry, without those that
the server has taken back or replaced. -/
def State.standing (state : State) : List Grant :=
  state.deeds.foldl Deed.leave []

section Grants

variable {files : FileTree} {registry after : Registry} {registration : Registration}
  {grant other : Grant}

/-- Every other grant stays when one is added or replaced. -/
theorem mem_replaceOrAppend_of_ne {grants : List Grant} (hother : other ∈ grants)
    (hid : other.id ≠ grant.id) : other ∈ Registry.replaceOrAppend grant grants := by
  rcases Registry.replaceOrAppend_cases grant grants with
    ⟨before, replaced, later, rfl, hreplaced, -, hresult⟩ | ⟨-, hresult⟩
  · rw [hresult]
    rcases List.mem_append.mp hother with hbefore | hrest
    · exact List.mem_append_left _ hbefore
    · rcases List.mem_cons.mp hrest with rfl | hlater
      · exact absurd hreplaced hid
      · exact List.mem_append_right _ (List.mem_cons_of_mem _ hlater)
  · rw [hresult]
    exact List.mem_append_left _ hother

theorem mem_replaceOrAppend_self (grant : Grant) (grants : List Grant) :
    grant ∈ Registry.replaceOrAppend grant grants := by
  rcases Registry.replaceOrAppend_cases grant grants with
    ⟨before, replaced, later, -, -, -, hresult⟩ | ⟨-, hresult⟩ <;> rw [hresult] <;> simp

/-- A registration that is accepted is granted, and takes the place of no grant but that with its
id. -/
theorem mem_grantsOf_add (hadd : registry.add files registration = .ok after)
    (hgrant : Grant.ofRegistration registration = .ok grant) :
    grant ∈ after.grantsOf grant.method ∧
      ∀ other ∈ registry.grantsOf other.method, sharePlace grant other = false →
        other ∈ after.grantsOf other.method := by
  obtain ⟨-, added, hadded, rfl⟩ := Registry.add_eq_ok hadd
  obtain rfl := Except.ok.inj (hadded.symm.trans hgrant)
  have hgrants (method : String) := Registry.grantsOf_put registry added.method method
    (Registry.replaceOrAppend added (registry.grantsOf added.method))
  constructor
  · change added ∈ (registry.put added.method _).grantsOf added.method
    rw [hgrants, if_pos rfl]
    exact mem_replaceOrAppend_self added _
  · intro other hother hplace
    change other ∈ (registry.put added.method _).grantsOf other.method
    rw [hgrants]
    split
    · rename_i hmethod
      have hid : other.id ≠ added.id := by simpa [sharePlace, hmethod] using hplace
      rw [hmethod] at hother
      exact mem_replaceOrAppend_of_ne hother hid
    · exact hother

/-- Taking a grant back leaves all others. -/
theorem mem_grantsOf_remove {unregistration : Unregistration}
    (hother : other ∈ registry.grantsOf other.method)
    (hid : (other.method == unregistration.method && other.id == some unregistration.id) = false) :
    other ∈ (registry.remove unregistration).1.grantsOf other.method := by
  by_cases hmem : ∃ grant ∈ registry.grantsOf unregistration.method,
      grant.id = some unregistration.id
  · obtain ⟨before, found, later, hsplit, hfound, hbefore⟩ := Registry.exists_first hmem
    rw [Registry.remove_of_split unregistration hsplit hfound hbefore]
    by_cases hmethod : other.method = unregistration.method
    · have hne : other ≠ found := by
        rintro rfl
        simp [hmethod, hfound] at hid
      have hleft : other ∈ before ++ later := by
        rw [hmethod, hsplit] at hother
        simpa [hne] using hother
      rw [if_neg (List.ne_nil_of_mem hleft), Registry.grantsOf_put, if_pos hmethod]
      exact hleft
    · dsimp only
      split
      · rw [Registry.grantsOf_clear, if_neg hmethod]
        exact hother
      · rw [Registry.grantsOf_put, if_neg hmethod]
        exact hother
  · rw [Registry.remove_of_not_mem unregistration (by simpa using hmem)]
    exact hother

theorem state_remove (registry : Registry) (unregistration : Unregistration) :
    (registry.remove unregistration).1.state = registry.state := by
  unfold Registry.remove
  dsimp only
  split <;> rfl

/-- A registration that cannot be read is not said to be too early. -/
theorem ofRegistration_ne_notReady (registration : Registration) (method : String) :
    Grant.ofRegistration registration ≠ .error (.notReady method) := by
  unfold Grant.ofRegistration
  split
  · simp
  · split <;> simp

/-- A registration is too early exactly if the registry is not ready. -/
theorem add_error_iff {error : FeatureError}
    (hadd : registry.add files registration = .error error) :
    error = .notReady registration.method ↔ registry.isReady = false := by
  unfold Registry.add at hadd
  split at hadd
  · rename_i hready
    exact iff_of_true (Except.error.inj hadd).symm (by simpa using hready)
  · rename_i hready
    refine iff_of_false ?_ (by simpa using hready)
    rintro rfl
    split at hadd
    · rename_i hgrant
      obtain rfl := Except.error.inj hadd
      exact ofRegistration_ne_notReady _ _ hgrant
    · cases hadd

end Grants

section Steps

variable {wasReady : Bool} {state : State} {files : FileTree}

/-- The caller has not opened the registry yet, and may still do so. -/
def Stage.isBefore : Stage → Bool
  | .waiting _ | .answered _ => true
  | _ => false

/-- The registry and the deeds of the reader agree, for a registry that was ready at the beginning
or not. -/
structure Orderly (wasReady : Bool) (state : State) : Prop where
  ready : state.client.registry.isReady = (wasReady || state.isOpened)
  before : state.stage.isBefore = true → state.isOpened = false
  /-- A registration is too early exactly if the registry was not opened before. -/
  early : ∀ registration isOpened error, Deed.tried registration isOpened error ∈ state.deeds →
    (error = some (.notReady registration.method) ↔ wasReady = false ∧ isOpened = false)
  /-- Nothing was accepted that opening the registry could discard. -/
  unopened : state.isOpened = false → state.standing = []
  granted : ∀ grant ∈ state.standing, grant ∈ state.client.registry.grantsOf grant.method

/-- Whoever leaves the grants and the deeds alone keeps order. -/
theorem Orderly.keep {client : Client} {stage : Stage} {job : Option Job}
    (horderly : Orderly wasReady state)
    (hstate : client.registry.state = state.client.registry.state)
    (hgrants : client.registry.grants = state.client.registry.grants)
    (hbefore : stage.isBefore = true → state.stage.isBefore = true) :
    Orderly wasReady ⟨client, stage, job, state.isOpened, state.deeds⟩ where
  ready := by
    rw [← horderly.ready]
    exact congrArg (· == RegistryState.ready) hstate
  before h := horderly.before (hbefore h)
  early := horderly.early
  unopened := horderly.unopened
  granted grant hgrant := by
    have hmem := horderly.granted grant hgrant
    rw [Registry.grantsOf] at hmem ⊢
    rwa [hgrants]

/-- A message that is sent waits behind the others, and nothing else changes. -/
theorem send_eq_ok {client after : Client} {message : Message}
    (hsend : client.send message = .ok after) :
    after = { client with outbox := client.outbox ++ [message] } := by
  unfold Client.send at hsend
  split at hsend
  · exact (Except.ok.inj hsend).symm
  · cases hsend

theorem exists_trySend (client : Client) (message : Message) :
    ∃ outbox, client.trySend message = { client with outbox } := by
  unfold Client.trySend
  split
  · rename_i hsend
    exact ⟨_, send_eq_ok hsend⟩
  · exact ⟨client.outbox, rfl⟩

theorem exists_cancelRequest (client : Client) (id : Nat) :
    ∃ outstanding outbox, client.cancelRequest id = { client with outstanding, outbox } := by
  obtain ⟨outbox, hsent⟩ := exists_trySend (client.withdraw id) (.notification
    ⟨protocolVersion, Client.cancelMethod, some (Json.object [("id", .int id)])⟩)
  exact ⟨_, outbox, hsent⟩

/-- The handshake begins with a request about the folder of the workspace. -/
theorem exists_beginHandshake (home : String) (client : Client) (root : String) :
    ∃ folders nextId outstanding outbox, (client.beginHandshake home root).2 =
      { client with folders, nextId, outstanding, outbox } := by
  unfold Client.beginHandshake Client.ask Client.note
  dsimp only [Client.takeNumber]
  split
  · exact ⟨_, _, client.outstanding, client.outbox, rfl⟩
  · rename_i noted hnoted
    split at hnoted
    · cases hnoted
    · obtain rfl := Except.ok.inj hnoted
      split
      · rename_i hsend
        have hsent := send_eq_ok hsend
        exact ⟨_, _, _, _, hsent⟩
      · exact ⟨_, _, _, client.outbox, rfl⟩

/-- A request of the server changes what its answer changes, and the answer is sent. -/
theorem exists_takeRequest (files : FileTree) (client : Client) (request : Request) :
    ∃ outbox, client.takeRequest files request =
      { (client.answer files request.method (request.params.getD .null)).2 with outbox } :=
  exists_trySend _ _

/-- A message that is not about registrations leaves the registry alone. -/
theorem registry_takeRequest (client : Client) {request : Request}
    (htasks : tasksOf? request = none) :
    (client.takeRequest files request).registry = client.registry := by
  have hanswer : (client.answer files request.method (request.params.getD .null)).2.registry =
      client.registry := by
    unfold tasksOf? at htasks
    unfold Client.answer
    dsimp only at htasks
    split at htasks
    · rename_i hmethod
      rw [if_pos hmethod, Client.registerFeatures, Option.map_eq_none_iff.mp htasks]
    · rename_i hregister
      split at htasks
      · rename_i hmethod
        rw [if_neg hregister, if_pos hmethod, Client.unregisterFeatures,
          Option.map_eq_none_iff.mp htasks]
      · rename_i hunregister
        rw [if_neg hregister, if_neg hunregister]
        split
        · rfl
        · split
          · rfl
          · split <;> rfl
  obtain ⟨outbox, hsent⟩ := exists_takeRequest files client request
  rw [hsent]
  exact hanswer

theorem registry_takeResponse (client : Client) (response : Response) :
    (client.takeResponse response).registry = client.registry := by
  unfold Client.takeResponse
  split
  · split <;> rfl
  · rfl

theorem Orderly.receive (horderly : Orderly wasReady state) (message : Message) :
    Orderly wasReady (state.receive files message) := by
  have hreceive (job : Option Job) (hregistry :
      (state.client.receive files message).1.registry = state.client.registry) :
      Orderly wasReady { state with client := (state.client.receive files message).1, job } :=
    horderly.keep (congrArg Registry.state hregistry) (congrArg Registry.grants hregistry) id
  unfold State.receive
  cases hjob : state.job with
  | some job => exact horderly
  | none =>
    cases message with
    | request request =>
      dsimp only
      split
      · exact horderly.keep rfl rfl id
      · rename_i htasks
        exact hreceive none (registry_takeRequest state.client htasks)
    | response response => exact hreceive none (registry_takeResponse state.client response)
    | notification notification => exact hreceive none rfl

/-- One more deed of the reader. -/
theorem standing_concat {client : Client} {stage : Stage} {job : Option Job} {isOpened : Bool}
    (deed : Deed) :
    (⟨client, stage, job, isOpened, state.deeds ++ [deed]⟩ : State).standing =
      deed.leave state.standing := by
  rw [State.standing, List.foldl_append]
  rfl

/-- A registration that is accepted stands, if the registry was opened before. -/
theorem Orderly.accept (horderly : Orderly wasReady state) {registration : Registration}
    {registry : Registry} (job : Option Job)
    (hadd : state.client.registry.add files registration = .ok registry) :
    Orderly wasReady { state with
      client := { state.client with registry }
      job
      deeds := state.deeds ++ [.tried registration state.isOpened none] } := by
  obtain ⟨hready, grant, hgrant, hafter⟩ := Registry.add_eq_ok hadd
  obtain ⟨hown, hothers⟩ := mem_grantsOf_add hadd hgrant
  have hwasReady : wasReady = true ∨ state.isOpened = true := by
    simpa [Registry.isReady, hready] using horderly.ready
  constructor
  · rw [← horderly.ready, hafter]
    rfl
  · exact horderly.before
  · intro other isOpened error hmem
    rcases List.mem_append.mp hmem with hold | hnew
    · exact horderly.early other isOpened error hold
    · obtain ⟨rfl, rfl, rfl⟩ := Deed.tried.inj (List.mem_singleton.mp hnew)
      refine iff_of_false (by simp) ?_
      rintro ⟨hunready, hunopened⟩
      rcases hwasReady with h | h
      · exact Bool.false_ne_true (hunready.symm.trans h)
      · exact Bool.false_ne_true (hunopened.symm.trans h)
  · intro hunopened
    rw [standing_concat, hunopened]
    exact horderly.unopened hunopened
  · intro other hother
    rw [standing_concat] at hother
    cases hopened : state.isOpened with
    | false =>
      rw [hopened] at hother
      have hnone := horderly.unopened hopened
      change other ∈ state.standing at hother
      rw [hnone] at hother
      cases hother
    | true =>
      rw [hopened] at hother
      simp only [Deed.leave, hgrant] at hother
      rcases List.mem_append.mp hother with hold | hnew
      · obtain ⟨hstanding, hplace⟩ := List.mem_filter.mp hold
        exact hothers other (horderly.granted other hstanding)
          (by simpa only [Bool.not_eq_true'] using hplace)
      · obtain rfl := List.mem_singleton.mp hnew
        exact hown

/-- A registration that is refused changes nothing. -/
theorem Orderly.refuse (horderly : Orderly wasReady state) {registration : Registration}
    {error : FeatureError} (job : Option Job)
    (hadd : state.client.registry.add files registration = .error error) :
    Orderly wasReady { state with
      job, deeds := state.deeds ++ [.tried registration state.isOpened (some error)] } := by
  have hsame : ({ state with
      job, deeds := state.deeds ++ [.tried registration state.isOpened (some error)] } :
        State).standing = state.standing := by
    rw [standing_concat]
    cases state.isOpened <;> rfl
  constructor
  · exact horderly.ready
  · exact horderly.before
  · intro other isOpened found hmem
    rcases List.mem_append.mp hmem with hold | hnew
    · exact horderly.early other isOpened found hold
    · obtain ⟨rfl, rfl, rfl⟩ := Deed.tried.inj (List.mem_singleton.mp hnew)
      rw [Option.some_inj, add_error_iff hadd, horderly.ready, Bool.or_eq_false_iff]
  · rw [hsame]
    exact horderly.unopened
  · rw [hsame]
    exact horderly.granted

/-- What is taken back stands no longer, and everything else stays. -/
theorem Orderly.withdraw (horderly : Orderly wasReady state) (unregistration : Unregistration)
    (job : Option Job) :
    Orderly wasReady { state with
      client := { state.client with
        registry := (state.client.registry.remove unregistration).1 }
      job
      deeds := state.deeds ++ [.withdrew unregistration] } := by
  constructor
  · rw [← horderly.ready]
    exact congrArg (· == RegistryState.ready) (state_remove _ _)
  · exact horderly.before
  · intro other isOpened error hmem
    rcases List.mem_append.mp hmem with hold | hnew
    · exact horderly.early other isOpened error hold
    · cases List.mem_singleton.mp hnew
  · intro hunopened
    rw [standing_concat, horderly.unopened hunopened]
    rfl
  · intro other hother
    rw [standing_concat] at hother
    obtain ⟨hstanding, hid⟩ := List.mem_filter.mp hother
    exact mem_grantsOf_remove (horderly.granted other hstanding)
      (by simpa only [Bool.not_eq_true'] using hid)

theorem Orderly.work (horderly : Orderly wasReady state) :
    Orderly wasReady (state.work files) := by
  unfold State.work
  split
  · exact horderly
  · split
    · rename_i job hjob task rest hrest
      cases task with
      | add registration =>
        rw [State.perform]
        split
        · rename_i registry hadd
          exact horderly.accept _ hadd
        · rename_i error hadd
          exact horderly.refuse _ hadd
      | remove unregistration => exact horderly.withdraw unregistration _
    · rename_i job hjob rest hrest
      obtain ⟨outbox, hsent⟩ := exists_trySend state.client (.response job.response)
      rw [hsent]
      exact horderly.keep rfl rfl id

theorem Orderly.resume (horderly : Orderly wasReady state) : Orderly wasReady state.resume := by
  unfold State.resume
  split
  · rename_i id hstage
    have hbefore (stage : Stage) : stage.isBefore = true → state.stage.isBefore = true := by
      intro _
      rw [hstage]
      rfl
    cases houtcome : state.client.outcomes.lookup id with
    | none =>
      simp only [Client.takeOutcome?, houtcome, Option.map_none]
      exact horderly
    | some response =>
      simp only [Client.takeOutcome?, houtcome, Option.map_some]
      split
      · exact horderly.keep rfl rfl (hbefore _)
      · split <;> exact horderly.keep rfl rfl (hbefore _)
  · exact horderly

theorem Orderly.expire (horderly : Orderly wasReady state) : Orderly wasReady state.expire := by
  unfold State.expire
  split
  · split
    · exact horderly
    · rename_i id hstage hnone
      obtain ⟨outstanding, outbox, hsent⟩ := exists_cancelRequest state.client id
      rw [hsent]
      exact horderly.keep rfl rfl fun h => by cases h
  · exact horderly

/-- Opening the registry discards nothing that stands, since nothing was accepted for it before. -/
theorem Orderly.grant (horderly : Orderly wasReady state) :
    Orderly wasReady (state.grant files) := by
  unfold State.grant
  split
  · rename_i result hstage
    have hunopened := horderly.before (by rw [hstage]; rfl)
    constructor
    · rw [Bool.or_true]
      rfl
    · intro h
      cases h
    · exact horderly.early
    · intro h
      cases h
    · intro grant hgrant
      change grant ∈ state.standing at hgrant
      rw [horderly.unopened hunopened] at hgrant
      cases hgrant
  · exact horderly

theorem Orderly.finish (horderly : Orderly wasReady state) : Orderly wasReady state.finish := by
  unfold State.finish
  split
  · rename_i result hstage
    dsimp only
    split
    · rename_i client hnotify
      obtain rfl := send_eq_ok hnotify
      exact horderly.keep rfl rfl fun h => by cases h
    · exact horderly.keep rfl rfl fun h => by cases h
  · exact horderly

/-- Every move of the reader and of the caller keeps order. -/
theorem Orderly.next (horderly : Orderly wasReady state) (step : FileTree × Move) :
    Orderly wasReady (state.next step) := by
  obtain ⟨files, move⟩ := step
  cases move with
  | receive message => exact horderly.receive message
  | work => exact horderly.work
  | terminate => exact horderly.keep rfl rfl id
  | resume => exact horderly.resume
  | expire => exact horderly.expire
  | grant => exact horderly.grant
  | finish => exact horderly.finish

theorem orderly_begin (home : String) (client : Client) (root : String) :
    Orderly client.registry.isReady (State.begin home client root) := by
  obtain ⟨folders, nextId, outstanding, outbox, hbegun⟩ := exists_beginHandshake home client root
  have hinitial (after : Client) (stage : Stage) (hafter : after.registry = client.registry) :
      Orderly client.registry.isReady ⟨after, stage, none, false, []⟩ := by
    constructor
    · rw [hafter, Bool.or_false]
    · exact fun _ => rfl
    · simp
    · exact fun _ => rfl
    · intro grant hgrant
      cases hgrant
  unfold State.begin
  split
  · rename_i id after hbegin
    rw [hbegin] at hbegun
    obtain rfl : after = _ := hbegun
    exact hinitial _ _ rfl
  · rename_i error after hbegin
    rw [hbegin] at hbegun
    obtain rfl : after = _ := hbegun
    exact hinitial _ _ rfl

/-- For every interleaving of the reader and the caller: a registration is refused for coming too
early exactly if the registry was not ready at the beginning and the caller has not opened it by
then, so that all that are accepted come after that. Whatever was accepted since the registry was
opened is granted, until the server takes it back or replaces it. -/
theorem early_iff_not_opened (home : String) (client : Client) (root : String)
    (steps : List (FileTree × Move)) :
    (∀ registration isOpened error,
      .tried registration isOpened error ∈ ((State.begin home client root).run steps).deeds →
        (error = some (.notReady registration.method) ↔
          client.registry.isReady = false ∧ isOpened = false)) ∧
    (∀ registration isOpened,
      .tried registration isOpened none ∈ ((State.begin home client root).run steps).deeds →
        client.registry.isReady = true ∨ isOpened = true) ∧
    ∀ grant ∈ ((State.begin home client root).run steps).standing,
      grant ∈ ((State.begin home client root).run steps).client.registry.grantsOf grant.method := by
  have horderly : Orderly client.registry.isReady ((State.begin home client root).run steps) :=
    Run.final_induction State.next _ (orderly_begin home client root)
      (fun _ step h => h.next step) steps
  refine ⟨horderly.early, fun registration isOpened hmem => ?_, horderly.granted⟩
  by_contra hnone
  rw [not_or, Bool.not_eq_true, Bool.not_eq_true] at hnone
  exact nomatch (horderly.early registration isOpened none hmem).mpr hnone

/-- The server answers the handshake and registers a feature right after that, before the caller
goes on. -/
def registersAtOnce : List (FileTree × Move) := [
  .receive (.response (.success (.number 1)
    (.obj [("capabilities", .obj [("hoverProvider", .bool true)])]))),
  .receive (.request ⟨protocolVersion, .number 5, "client/registerCapability",
    some (.obj [("registrations", .arr [
      .obj [("id", .str "5"), ("method", .str "textDocument/hover")]])])⟩),
  .work, .work, .resume, .grant, .finish].map (Sample.files, ·)

/-- The server has answered the handshake, and yet its registration is refused as if it had not. It
is not granted when the handshake returns. -/
theorem refused_of_registersAtOnce :
    ((State.begin "/home" (.connect "server" .utf16 .standard 0 none) "/w").run
        registersAtOnce).deeds =
      [.tried ⟨"5", "textDocument/hover", none⟩ false (some (.notReady "textDocument/hover"))] ∧
    (∃ result, ((State.begin "/home" (.connect "server" .utf16 .standard 0 none) "/w").run
      registersAtOnce).stage = .returned result) ∧
    (((State.begin "/home" (.connect "server" .utf16 .standard 0 none) "/w").run
      registersAtOnce).client.registry.grantsOf "textDocument/hover").map Grant.id = [none] :=
  ⟨rfl, ⟨_, rfl⟩, rfl⟩

end Steps

end LanguageClient.Handshake
