import LanguageClient.Proofs.Workspace.Desk
import LanguageClient.Proofs.Workspace.Shift
import LanguageClient.Simulation.Progress

/-!
# Saving step by step

A save goes on from one client to the next, then to the edits, the file and the clients again. At
every stage other operations may come in between. What a step can do is said once, and whatever
steps keep is derived from that. Left alone, the steps of a save lead to what is done at once.
-/

namespace LanguageClient

namespace Session

variable {session after : Session} {id place number : Nat} {document : TextDocument}

/-- Asking a client for edits changes nothing but the client. -/
theorem askForEdits_keeps (session : Session) (place : Nat) (document : TextDocument) :
    (session.askForEdits place document).2.documents = session.documents ∧
    (session.askForEdits place document).2.workspace = session.workspace ∧
    (session.askForEdits place document).2.files = session.files := by
  unfold askForEdits
  split
  · exact ⟨rfl, rfl, rfl⟩
  · split <;> exact ⟨rfl, rfl, rfl⟩

/-- A request for edits was sent to a client that is there. -/
theorem exists_asked (hasked : session.askForEdits place document = (some number, after)) :
    ∃ client, after.clients[place]? = some client := by
  unfold askForEdits at hasked
  split at hasked
  · cases hasked
  · rename_i client hclient
    split at hasked
    · rename_i asked _
      obtain ⟨-, rfl⟩ := Prod.mk.inj hasked
      refine ⟨asked, ?_⟩
      rw [modifyClient, List.getElem?_modify_eq, hclient]
      rfl
    · cases hasked
    · cases hasked

/-- The edits that a client offers, if it has answered, if its answer is no longer awaited, or if
its time is over. -/
def takeEdits? (session : Session) (place number : Nat) (isOver : Bool) :
    Option (Session × List TextEdit) :=
  match session.clients[place]? with
  | none => none
  | some client =>
    match client.takeOutcome? number with
    | some (response, client) =>
      some (session.modifyClient place fun _ => client,
        (((client.resultOf response).bind Simulation.editsOf).toOption).getD [])
    | none =>
      if client.isGivenUp number then some (session, [])
      else if isOver then
        some (session.modifyClient place fun client => client.cancelRequest number, [])
      else none

/-- Taking the edits of a client changes nothing but the client. -/
theorem takeEdits?_keeps {isOver : Bool} {edits : List TextEdit}
    (htake : session.takeEdits? place number isOver = some (after, edits)) :
    after.documents = session.documents ∧ after.workspace = session.workspace ∧
      after.files = session.files := by
  unfold takeEdits? at htake
  split at htake
  · cases htake
  · split at htake
    · obtain ⟨rfl, -⟩ := Prod.mk.inj (Option.some.inj htake)
      exact ⟨rfl, rfl, rfl⟩
    · split at htake
      · obtain ⟨rfl, -⟩ := Prod.mk.inj (Option.some.inj htake)
        exact ⟨rfl, rfl, rfl⟩
      · split at htake
        · obtain ⟨rfl, -⟩ := Prod.mk.inj (Option.some.inj htake)
          exact ⟨rfl, rfl, rfl⟩
        · cases htake

theorem find_eq (hdocument : session.documents[id]? = some document) :
    session.find id = .ok document := by
  rw [find, hdocument]

/-- Writing a text changes nothing but the files. -/
theorem writeText_eq (hdocument : session.documents[id]? = some document) (text : String) :
    session.writeText id text =
      ((session.files.write document.path (Utf8.encode text)).mapError .file).map fun files =>
        { session with files } := by
  rw [writeText, find_eq hdocument]
  dsimp only [bind, Except.bind]
  cases session.files.write document.path (Utf8.encode text) <;> rfl

/-- When a text was written, the document counts as saved, and the clients are told. -/
theorem finishSave_eq (hdocument : session.documents[id]? = some document) (text : String) :
    session.finishSave id text = .ok ((session.setDocument id { document with
      isSaved := true }).tell (session.listeners document) fun client =>
        client.didSave session.files document.uri document.language text) := by
  rw [finishSave, find_eq hdocument]
  rfl

/-- After a text was written, the clients can be told. -/
theorem exists_finishSave {text : String} (hwrite : session.writeText id text = .ok after) :
    ∃ told, after.finishSave id text = .ok told := by
  cases hdocument : session.documents[id]? with
  | none =>
    rw [writeText, find, hdocument] at hwrite
    cases hwrite
  | some document =>
    rw [writeText_eq hdocument] at hwrite
    cases hfiles : session.files.write document.path (Utf8.encode text) with
    | error error =>
      rw [hfiles] at hwrite
      cases hwrite
    | ok files =>
      rw [hfiles] at hwrite
      obtain rfl := Except.ok.inj hwrite
      have hkept : { session with files }.documents[id]? = some document := hdocument
      exact ⟨_, finishSave_eq hkept text⟩

/-- A text that could be written has changed no document. -/
theorem writeText_keeps {text : String} (hwrite : session.writeText id text = .ok after) :
    after.documents = session.documents ∧ after.workspace = session.workspace := by
  cases hdocument : session.documents[id]? with
  | none =>
    rw [writeText, find, hdocument] at hwrite
    cases hwrite
  | some document =>
    rw [writeText_eq hdocument] at hwrite
    cases hfiles : session.files.write document.path (Utf8.encode text) with
    | error error =>
      rw [hfiles] at hwrite
      cases hwrite
    | ok files =>
      rw [hfiles] at hwrite
      obtain rfl := Except.ok.inj hwrite
      exact ⟨rfl, rfl⟩

/-- A save that has come to its end has marked its document. -/
theorem exists_marked {text : String} (hfinish : session.finishSave id text = .ok after) :
    ∃ document, session.documents[id]? = some document ∧
      after.documents = (session.setDocument id { document with isSaved := true }).documents := by
  cases hdocument : session.documents[id]? with
  | none =>
    rw [finishSave, find, hdocument] at hfinish
    cases hfinish
  | some document =>
    rw [finishSave_eq hdocument] at hfinish
    obtain rfl := Except.ok.inj hfinish
    exact ⟨document, rfl, (tell_keeps _ _ _).1⟩

end Session

namespace Saving

/-- How far a save is. -/
inductive Stage
  /-- Clients are left to be told and asked; some edits were offered so far. -/
  | asking (clients : List Nat) (edits : List TextEdit)
  /-- A client was asked, and has to answer or to run out of time. -/
  | waiting (client number : Nat) (others : List Nat) (edits : List TextEdit)
  /-- The text that is to be written. -/
  | writing (text : String)
  /-- The text that was written; the clients are to be told. -/
  | written (text : String)
  | ended (result : Except DocumentError Unit)

/-- A desk at which one document is saved. -/
structure State where
  desk : Desk
  document : Nat
  stage : Stage

/-- One thing that can happen at the desk. -/
inductive Step
  | operate (operation : Operation)
  /-- Anything else happens to a client. -/
  | client (place : Nat) (change : Client → Client)
  /-- Another save has written its text. -/
  | finish (document : Nat) (text : String)
  /-- The save goes on by itself. -/
  | proceed
  /-- The save goes on with the answer of a client, or without one if its time is over. -/
  | answer (isOver : Bool)

namespace State

/-- The session of the desk. -/
def session (state : State) : Session := state.desk.session

/-- The save goes on with a session and a stage. -/
def goOn (state : State) (session : Session) (stage : Stage) : State :=
  { state with desk := { state.desk with session }, stage }

/-- What the save does until it has to wait. -/
def proceed (state : State) : State :=
  match state.stage with
  | .asking (place :: others) edits =>
    match state.session.find state.document with
    | .error error => { state with stage := .ended (.error error) }
    | .ok document =>
      match (state.session.tellWillSave place document).askForEdits place document with
      | (some number, session) => state.goOn session (.waiting place number others edits)
      | (none, session) => state.goOn session (.asking others edits)
  | .asking [] edits =>
    match state.session.applySaveEdits state.document edits with
    | (session, .ok text) => state.goOn session (.writing text)
    | (session, .error error) => state.goOn session (.ended (.error error))
  | .writing text =>
    match state.session.writeText state.document text with
    | .ok session => state.goOn session (.written text)
    | .error error => { state with stage := .ended (.error error) }
  | .written text =>
    match state.session.finishSave state.document text with
    | .ok session => state.goOn session (.ended (.ok ()))
    | .error error => { state with stage := .ended (.error error) }
  | .waiting .. | .ended _ => state

/-- What one step leads to. -/
def next (state : State) : Step → State
  | .operate operation => { state with desk := state.desk.perform operation }
  | .client place change => state.goOn (state.session.modifyClient place change) state.stage
  | .finish document text =>
    match state.session.finishSave document text with
    | .ok session => state.goOn session state.stage
    | .error _ => state
  | .proceed => state.proceed
  | .answer isOver =>
    match state.stage with
    | .waiting place number others edits =>
      match state.session.takeEdits? place number isOver with
      | some (session, offered) => state.goOn session (.asking others (edits ++ offered))
      | none => state
    | _ => state

end State

/-- A save that begins. -/
def begin (desk : Desk) (document : Nat) : State :=
  ⟨desk, document,
    match desk.session.beginSave document with
    | .ok clients => .asking clients []
    | .error error => .ended (.error error)⟩

/-- What a run leads to. -/
abbrev run (start : State) (steps : List Step) : State :=
  Run.final State.next start steps

/-- Whether clients are still told and asked, or the last one has just answered. -/
def Stage.isAsking : Stage → Bool
  | .asking .. | .waiting .. => true
  | _ => false

/-- Whether it is the save that goes on with a step. -/
def Step.isOfSave : Step → Bool
  | .proceed | .answer _ => true
  | _ => false

/-- Why a save cannot go on: its document is not there, or its text cannot be written. -/
inductive State.Stops (state : State) (error : DocumentError) : Prop
  | missing (hfind : state.session.find state.document = .error error)
  | unwritten {text : String} (hstage : state.stage = .writing text)
      (hwrite : state.session.writeText state.document text = .error error)
  | unmarked {text : String} (hstage : state.stage = .written text)
      (hfinish : state.session.finishSave state.document text = .error error)

/-- What a step can do to a save and to its desk. -/
inductive State.Takes (state : State) : Step → State → Prop
  | operates (operation : Operation) :
    Takes state (.operate operation) { state with desk := state.desk.perform operation }
  | changes (place : Nat) (change : Client → Client) :
    Takes state (.client place change)
      (state.goOn (state.session.modifyClient place change) state.stage)
  | finishes {id : Nat} {text : String} {session : Session}
      (hfinish : state.session.finishSave id text = .ok session) :
    Takes state (.finish id text) (state.goOn session state.stage)
  /-- There is nothing to do, or nothing has come yet. -/
  | waits {step : Step} (hstep : ∀ operation, step ≠ .operate operation) : Takes state step state
  /-- A client is told and asked, or has answered. -/
  | asks {step : Step} {session : Session} {stage : Stage} (hstep : step.isOfSave = true)
      (hasking : state.stage.isAsking = true) (hnext : stage.isAsking = true)
      (hdocuments : session.documents = state.session.documents)
      (hworkspace : session.workspace = state.session.workspace)
      (hfiles : session.files = state.session.files) :
    Takes state step (state.goOn session stage)
  | edits {edits : List TextEdit} {session : Session} {text : String}
      (hstage : state.stage = .asking [] edits)
      (happly : state.session.applySaveEdits state.document edits = (session, .ok text)) :
    Takes state .proceed (state.goOn session (.writing text))
  | refuses {edits : List TextEdit} {session : Session} {error : DocumentError}
      (hstage : state.stage = .asking [] edits)
      (happly : state.session.applySaveEdits state.document edits = (session, .error error)) :
    Takes state .proceed (state.goOn session (.ended (.error error)))
  | writes {text : String} {session : Session} (hstage : state.stage = .writing text)
      (hwrite : state.session.writeText state.document text = .ok session) :
    Takes state .proceed (state.goOn session (.written text))
  | marks {text : String} {session : Session} (hstage : state.stage = .written text)
      (hfinish : state.session.finishSave state.document text = .ok session) :
    Takes state .proceed (state.goOn session (.ended (.ok ())))
  | stops {error : DocumentError} (hstops : state.Stops error) :
    Takes state .proceed { state with stage := .ended (.error error) }

section Steps

variable {state after : State} {step : Step}

/-- What a save does when it goes on by itself. -/
theorem State.takes_proceed (state : State) : state.Takes .proceed state.proceed := by
  unfold State.proceed
  split
  · rename_i place others edits hstage
    have hasking : state.stage.isAsking = true := by rw [hstage]; rfl
    split
    · rename_i error hfind
      exact .stops (.missing hfind)
    · rename_i document hfind
      obtain ⟨hdocuments, hworkspace, hfiles⟩ := Session.tell_keeps state.session [place]
        fun client => client.willSave state.session.files document.uri document.language
      obtain ⟨hdocuments', hworkspace', hfiles'⟩ :=
        Session.askForEdits_keeps (state.session.tellWillSave place document) place document
      split <;>
      · rename_i hasked
        rw [hasked] at hdocuments' hworkspace' hfiles'
        exact .asks rfl hasking rfl (hdocuments'.trans hdocuments) (hworkspace'.trans hworkspace)
          (hfiles'.trans hfiles)
  · rename_i edits hstage
    split
    · rename_i session text happly
      exact .edits hstage happly
    · rename_i session error happly
      exact .refuses hstage happly
  · rename_i text hstage
    split
    · rename_i session hwrite
      exact .writes hstage hwrite
    · rename_i error hwrite
      exact .stops (.unwritten hstage hwrite)
  · rename_i text hstage
    split
    · rename_i session hfinish
      exact .marks hstage hfinish
    · rename_i error hfinish
      exact .stops (.unmarked hstage hfinish)
  · exact .waits fun _ h => by cases h
  · exact .waits fun _ h => by cases h

/-- Every step is one of these. -/
theorem State.takes_next (state : State) (step : Step) : state.Takes step (state.next step) := by
  cases step with
  | operate operation => exact .operates operation
  | client place change => exact .changes place change
  | finish id text =>
    rw [State.next]
    split
    · rename_i session hfinish
      exact .finishes hfinish
    · exact .waits fun _ h => by cases h
  | proceed => exact state.takes_proceed
  | answer isOver =>
    rw [State.next]
    split
    · rename_i place number others edits hstage
      split
      · rename_i taken offered htake
        obtain ⟨hdocuments, hworkspace, hfiles⟩ := Session.takeEdits?_keeps htake
        exact .asks rfl (by rw [hstage]; rfl) rfl hdocuments hworkspace hfiles
      · exact .waits fun _ h => by cases h
    · exact .waits fun _ h => by cases h

/-- One save is about one document. -/
theorem State.Takes.document_eq (htakes : state.Takes step after) :
    after.document = state.document := by
  cases htakes <;> rfl

theorem document_run (start : State) (steps : List Step) :
    (run start steps).document = start.document := by
  induction steps generalizing start with
  | nil => rfl
  | cons step rest ih => exact (ih (start.next step)).trans (start.takes_next step).document_eq

/-- While clients are told and asked, the save changes no document. -/
theorem documents_proceed {place : Nat} {others : List Nat} {edits : List TextEdit}
    (hstage : state.stage = .asking (place :: others) edits) :
    state.proceed.session.documents = state.session.documents := by
  have htakes := state.takes_proceed
  generalize state.proceed = after at htakes
  cases htakes with
  | waits | stops => rfl
  | asks hstep hasking hnext hdocuments => exact hdocuments
  | edits h | refuses h | writes h | marks h =>
    rw [hstage] at h
    cases h

end Steps

section Progress

variable {state : State}

/-- What has become of the save, as soon as it waits for a client or has ended. -/
def Stage.progress? (sim : Simulation) (document : Nat) : Stage → Option Progress
  | .waiting place number others edits =>
    (sim.session.clients[place]?).map fun client =>
      let method := Client.willSaveWaitUntilMethod
      .waiting (.save document ⟨place, number, method, sim.deadlineFor client method⟩ others edits)
  | .ended result => some (.ended (.document result))
  | _ => none

/-- The save of a state is where an operation is that was done at once. -/
structure Agrees (sim : Simulation) (state : State) (result : Simulation × Progress) : Prop where
  sim_eq : result.1 = { sim with session := state.session }
  progress : state.stage.progress? result.1 state.document = some result.2

/-- A save that is left alone comes to where an operation is that was done at once. -/
def Reaches (sim : Simulation) (state : State) (result : Simulation × Progress) : Prop :=
  ∃ n, Agrees sim (run state (List.replicate n .proceed)) result

theorem Agrees.reaches {sim : Simulation} {result : Simulation × Progress}
    (hagrees : Agrees sim state result) : Reaches sim state result :=
  ⟨0, hagrees⟩

theorem Reaches.of_proceed {sim : Simulation} {result : Simulation × Progress}
    (hreaches : Reaches sim state.proceed result) : Reaches sim state result := by
  obtain ⟨n, hagrees⟩ := hreaches
  exact ⟨n + 1, hagrees⟩

/-- The edits are queued, the file is written and the clients are told as it is done at once. -/
theorem reaches_endSave (sim : Simulation) (lists : List LocationList) (document : Nat)
    (edits : List TextEdit) :
    Reaches sim ⟨⟨sim.session, lists⟩, document, .asking [] edits⟩
      (sim.endSave document edits) := by
  refine Reaches.of_proceed ?_
  rw [Simulation.endSave]
  cases happly : sim.session.applySaveEdits document edits with
  | mk applied result =>
    simp only [State.proceed, State.session, happly]
    cases result with
    | error error => exact Agrees.reaches ⟨rfl, rfl⟩
    | ok text =>
      refine Reaches.of_proceed ?_
      simp only [State.proceed, State.session, State.goOn]
      cases hwrite : applied.writeText document text with
      | error error => exact Agrees.reaches ⟨rfl, rfl⟩
      | ok written =>
        refine Reaches.of_proceed ?_
        obtain ⟨told, hfinish⟩ := Session.exists_finishSave hwrite
        simp only [State.proceed, State.session, hfinish]
        have hboth : (Except.ok written >>= (·.finishSave document text)) = .ok told := hfinish
        rw [hboth]
        exact Agrees.reaches ⟨rfl, rfl⟩

/-- A save that is left alone does step by step what is done at once. -/
theorem reaches_askForSave (sim : Simulation) (lists : List LocationList) (document : Nat)
    (edits : List TextEdit) (clients : List Nat) :
    Reaches sim ⟨⟨sim.session, lists⟩, document, .asking clients edits⟩
      (sim.askForSave document edits clients) := by
  induction clients generalizing sim with
  | nil => exact reaches_endSave sim lists document edits
  | cons place others ih =>
    refine Reaches.of_proceed ?_
    rw [Simulation.askForSave]
    simp only [State.proceed, State.session]
    cases sim.session.find document with
    | error error => exact Agrees.reaches ⟨rfl, rfl⟩
    | ok saved =>
      dsimp only
      cases hasked : (sim.session.tellWillSave place saved).askForEdits place saved with
      | mk number? session =>
        cases number? with
        | none =>
          obtain ⟨n, hsim, hprogress⟩ := ih { sim with session }
          exact ⟨n, hsim, hprogress⟩
        | some number =>
          obtain ⟨client, hclient⟩ := Session.exists_asked hasked
          simp only [hclient]
          refine Agrees.reaches ⟨rfl, ?_⟩
          simp only [Stage.progress?, State.goOn, hclient, Option.map_some]

/-- A save that waits goes on as it does when nothing comes in between. -/
theorem continue?_save (sim : Simulation) (document : Nat) (call : Call) (others : List Nat)
    (edits : List TextEdit) :
    sim.continue? (.save document call others edits) =
      (sim.session.takeEdits? call.client call.id (sim.isOver call.deadline)).map fun taken =>
        { sim with session := taken.1 }.askForSave document (edits ++ taken.2) others := by
  rw [Simulation.continue?, Simulation.takeResult?, Session.takeEdits?]
  cases hclient : sim.session.clients[call.client]? with
  | none => rfl
  | some client =>
    dsimp only
    cases client.takeOutcome? call.id with
    | some taken => rfl
    | none =>
      dsimp only
      split
      · rfl
      · split <;> rfl

end Progress

end Saving

end LanguageClient
