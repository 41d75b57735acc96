import LanguageClient.Client.Incoming
import LanguageClient.Client.Lifecycle
import LanguageClient.Proofs.Feature.Withdrawal

/-!
# The handshake beside the reader

The caller of the handshake and the reader of messages work side by side on one client. The reader
hands the answer of the server over and goes on with the next message at once; only the caller opens
the registry, when its turn comes. The registry is locked for one change at a time, so the other one
may come between any two of them.

A registration that the reader reaches before the caller has opened the registry is refused,
although the server has answered the handshake already. One that is accepted after that stays, until
the server takes it back or puts another one in its place.
-/

namespace LanguageClient.Handshake

/-- How far the caller has come. -/
inductive Stage
  /-- The answer is outstanding, or was not taken yet. -/
  | waiting (id : Nat)
  | answered (result : HandshakeResult)
  /-- The registry was opened with what the answer grants. -/
  | granted (result : HandshakeResult)
  | returned (result : HandshakeResult)
  | failed (error : ClientError)

/-- One change of the registry that a request of the server asks for. -/
inductive Task
  | add (registration : Registration)
  | remove (unregistration : Unregistration)

/-- A request of the server that the reader is at work on. -/
structure Job where
  request : RequestId
  rest : List Task
  /-- The wordings of the refusals so far. -/
  refusals : List String

/-- What the reader has done. -/
inductive Deed
  /-- A registration was tried, before or after the handshake has opened the registry. -/
  | tried (registration : Registration) (isOpened : Bool) (error : Option FeatureError)
  | withdrew (unregistration : Unregistration)

/-- A client, with its caller and its reader. -/
structure State where
  client : Client
  stage : Stage
  job : Option Job
  /-- Whether the handshake has opened the registry. -/
  isOpened : Bool
  deeds : List Deed

/-- One thing that the reader or the caller does. -/
inductive Move
  /-- The reader takes a message, if it is not at work on one. -/
  | receive (message : Message)
  /-- The reader goes on with its work. -/
  | work
  /-- The stream of the server ends. -/
  | terminate
  /-- The caller takes the answer, if it has come. -/
  | resume
  /-- The time of the caller is over. -/
  | expire
  /-- The caller opens the registry. -/
  | grant
  /-- The caller tells the server that the handshake is complete. -/
  | finish

/-- The changes that a request of the server asks for, if it is about registrations and can be
read. -/
def tasksOf? (request : Request) : Option (List Task) :=
  let params := request.params.getD .null
  if request.method == "client/registerCapability" then
    (decode? params : Option RegistrationParams).map fun params =>
      params.registrations.map .add
  else if request.method == "client/unregisterCapability" then
    (decode? params : Option UnregistrationParams).map fun params =>
      params.unregistrations.map .remove
  else none

/-- The answer to a request after all of its changes. -/
def Job.response (job : Job) : Response :=
  if job.refusals.isEmpty then .success job.request .null
  else .failure job.request
    (.plain ResponseError.invalidParams ("; ".intercalate job.refusals))

namespace State

/-- The caller begins the handshake for the workspace at a path. -/
def begin (home : String) (client : Client) (root : String) : State :=
  match client.beginHandshake home root with
  | (.ok id, client) => ⟨client, .waiting id, none, false, []⟩
  | (.error error, client) => ⟨client, .failed error, none, false, []⟩

/-- The reader takes a message. -/
def receive (files : FileTree) (state : State) (message : Message) : State :=
  match state.job, message with
  | some _, _ => state
  | none, .request request =>
    match tasksOf? request with
    | some tasks => { state with job := some ⟨request.id, tasks, []⟩ }
    | none => { state with client := (state.client.receive files message).1 }
  | none, _ => { state with client := (state.client.receive files message).1 }

/-- The reader makes one change of the registry. -/
def perform (files : FileTree) (state : State) (job : Job) (rest : List Task) : Task → State
  | .add registration =>
    match state.client.registry.add files registration with
    | .ok registry =>
      { state with
        client := { state.client with registry }
        job := some { job with rest }
        deeds := state.deeds ++ [.tried registration state.isOpened none] }
    | .error error =>
      { state with
        job := some { job with rest, refusals := job.refusals ++ [error.message] }
        deeds := state.deeds ++ [.tried registration state.isOpened (some error)] }
  | .remove unregistration =>
    { state with
      client := { state.client with
        registry := (state.client.registry.remove unregistration).1 }
      job := some { job with rest }
      deeds := state.deeds ++ [.withdrew unregistration] }

/-- The reader makes the next change, or answers the request after the last one. -/
def work (files : FileTree) (state : State) : State :=
  match state.job with
  | none => state
  | some job =>
    match job.rest with
    | task :: rest => state.perform files job rest task
    | [] => { state with client := state.client.trySend (.response job.response), job := none }

/-- The caller takes the answer, if it has come. -/
def resume (state : State) : State :=
  match state.stage with
  | .waiting id =>
    match state.client.takeOutcome? id with
    | none => state
    | some (response, client) =>
      match client.resultOf response with
      | .error error => { state with client, stage := .failed error }
      | .ok answer =>
        match (decode? answer : Option HandshakeResult) with
        | some result => { state with client, stage := .answered result }
        | none => { state with client, stage := .failed .badAnswer }
  | _ => state

/-- The caller gives up, unless the answer has come. -/
def expire (state : State) : State :=
  match state.stage with
  | .waiting id =>
    if (state.client.takeOutcome? id).isSome then state
    else { state with
      client := state.client.cancelRequest id
      stage := .failed (.requestTimeout state.client.name Client.handshakeMethod) }
  | _ => state

/-- The caller opens the registry. -/
def grant (files : FileTree) (state : State) : State :=
  match state.stage with
  | .answered result =>
    { state with
      client := { state.client with
        registry := state.client.registry.setCapabilities files result.capabilities }
      stage := .granted result
      isOpened := true }
  | _ => state

/-- The caller tells the server that the handshake is complete. -/
def finish (state : State) : State :=
  match state.stage with
  | .granted result =>
    let client := { state.client with serverInfo := result.serverInfo }
    match client.notify "initialized" (some (.obj [])) with
    | .ok client => { state with client, stage := .returned result }
    | .error error => { state with client, stage := .failed error }
  | _ => state

/-- What one move leads to, with the files as they are then. -/
def next (state : State) (step : FileTree × Move) : State :=
  match step.2 with
  | .receive message => state.receive step.1 message
  | .work => state.work step.1
  | .terminate => { state with client := state.client.terminate }
  | .resume => state.resume
  | .expire => state.expire
  | .grant => state.grant step.1
  | .finish => state.finish

/-- What several moves lead to. -/
abbrev run (state : State) (steps : List (FileTree × Move)) : State :=
  Run.final next state steps

theorem run_concat (state : State) (steps : List (FileTree × Move)) (step : FileTree × Move) :
    state.run (steps ++ [step]) = (state.run steps).next step :=
  Run.final_concat next state steps step

end State

section Alone

variable {state : State} (files : FileTree)

/-- A caller that is not interrupted completes the handshake as it is completed at once. -/
theorem finish_grant {result : HandshakeResult} (hstage : state.stage = .answered result) :
    (state.grant files).finish.client = (state.client.finishHandshake files result).2 ∧
      (state.grant files).finish.stage =
        match (state.client.finishHandshake files result).1 with
        | .ok result => .returned result
        | .error error => .failed error := by
  simp only [State.grant, hstage, State.finish, Client.finishHandshake]
  generalize Client.notify _ _ _ = sent
  cases sent with
  | ok client => exact ⟨rfl, rfl⟩
  | error error => exact ⟨rfl, rfl⟩

/-- A reader that is not interrupted adds registrations as they are added at once. -/
theorem run_add {id : RequestId} {registrations : List Registration} {refusals : List String}
    (hjob : state.job = some ⟨id, registrations.map .add, refusals⟩) :
    ∃ deeds, state.run (List.replicate registrations.length (files, .work)) =
      { state with
        client := { state.client with
          registry := (Client.addRegistrations files state.client.registry registrations).1 }
        job := some ⟨id, [], refusals ++
          (Client.addRegistrations files state.client.registry registrations).2⟩
        deeds } := by
  induction registrations generalizing state refusals with
  | nil =>
    obtain ⟨client, stage, job, isOpened, deeds⟩ := state
    obtain rfl := hjob
    refine ⟨deeds, ?_⟩
    rw [Client.addRegistrations, List.append_nil]
    rfl
  | cons registration rest ih =>
    have hwork : state.work files = state.perform files
        ⟨id, (registration :: rest).map .add, refusals⟩ (rest.map .add) (.add registration) := by
      rw [State.work, hjob]
      rfl
    change ∃ deeds, (state.work files).run (List.replicate rest.length _) = _
    rw [hwork, State.perform, Client.addRegistrations]
    cases hadd : state.client.registry.add files registration with
    | ok registry =>
      refine ih ?_
      rfl
    | error error =>
      dsimp only
      rw [List.append_cons refusals error.message
        (Client.addRegistrations files state.client.registry rest).2]
      refine ih ?_
      rfl

/-- A reader that is not interrupted takes registrations back as they are taken back at once. -/
theorem run_remove {id : RequestId} {unregistrations : List Unregistration}
    {refusals : List String} (hjob : state.job = some ⟨id, unregistrations.map .remove, refusals⟩) :
    ∃ deeds, state.run (List.replicate unregistrations.length (files, .work)) =
      { state with
        client := { state.client with
          registry := unregistrations.foldl (fun registry unregistration =>
            (registry.remove unregistration).1) state.client.registry }
        job := some ⟨id, [], refusals⟩
        deeds } := by
  induction unregistrations generalizing state with
  | nil =>
    obtain ⟨client, stage, job, isOpened, deeds⟩ := state
    obtain rfl := hjob
    exact ⟨deeds, rfl⟩
  | cons unregistration rest ih =>
    have hwork : state.work files = state.perform files
        ⟨id, (unregistration :: rest).map .remove, refusals⟩ (rest.map .remove)
        (.remove unregistration) := by
      rw [State.work, hjob]
      rfl
    change ∃ deeds, (state.work files).run (List.replicate rest.length _) = _
    rw [hwork]
    refine ih ?_
    rfl

/-- A reader that is not interrupted takes a request as it is taken at once. -/
theorem run_request (hidle : state.job = none) {request : Request} {tasks : List Task}
    (htasks : tasksOf? request = some tasks) :
    ∃ deeds, state.run ((files, .receive (.request request)) ::
        (List.replicate tasks.length (files, .work) ++ [(files, .work)])) =
      { state with client := (state.client.receive files (.request request)).1, deeds } := by
  have hreceive : state.receive files (.request request) =
      { state with job := some ⟨request.id, tasks, []⟩ } := by
    simp only [State.receive, hidle, htasks]
  change ∃ deeds, (state.receive files _).run _ = _
  rw [hreceive, State.run_concat]
  unfold tasksOf? at htasks
  dsimp only at htasks
  split at htasks
  · rename_i hmethod
    obtain ⟨params, hparams, rfl⟩ := Option.map_eq_some_iff.mp htasks
    have hjob : { state with
        job := some ⟨request.id, params.registrations.map .add, []⟩ : State }.job =
          some ⟨request.id, params.registrations.map .add, []⟩ := rfl
    obtain ⟨deeds, hrun⟩ := run_add files hjob
    refine ⟨deeds, ?_⟩
    rw [List.length_map, hrun]
    simp only [State.next, State.work, Job.response, Client.receive, Client.takeRequest,
      Client.answer, hmethod, if_true, Client.registerFeatures, hparams, List.nil_append, hidle]
    split <;> rfl
  · split at htasks
    · rename_i hother hmethod
      obtain ⟨params, hparams, rfl⟩ := Option.map_eq_some_iff.mp htasks
      have hjob : { state with
          job := some ⟨request.id, params.unregistrations.map .remove, []⟩ : State }.job =
            some ⟨request.id, params.unregistrations.map .remove, []⟩ := rfl
      obtain ⟨deeds, hrun⟩ := run_remove files hjob
      refine ⟨deeds, ?_⟩
      rw [List.length_map, hrun]
      simp only [State.next, State.work, Job.response, Client.receive, Client.takeRequest,
        Client.answer, hother, hmethod, if_true, Client.unregisterFeatures, hparams, hidle]
      rfl
    · cases htasks

end Alone

end LanguageClient.Handshake
