import LanguageClient.Proofs.Feature.Static
import LanguageClient.Proofs.Workspace.Events
import LanguageClient.Proofs.Workspace.Keeping

/-!
# Saves that outlive their document

A save looks once, at its beginning, whether the document is open. Then it waits for the servers,
and other operations go on meanwhile. When the last answer is there, only edits that a server offers
make it look again: they cannot be queued for a document that was closed. Without any edits the text
is written, and the clients that were told of the closing are told of the saving.
-/

namespace LanguageClient

namespace TextDocument

/-- Why an edit that is given by positions cannot be queued for a closed document. -/
def refusal (document : TextDocument) (edit : TextEdit) : DocumentError :=
  match document.offsetsOf edit.range with
  | .ok _ => .closed document.uri
  | .error error => error

theorem pushTextEdit_of_closed (document : TextDocument) (hclosed : document.isClosed = true)
    (edit : TextEdit) : document.pushTextEdit edit = .error (document.refusal edit) := by
  rw [pushTextEdit, refusal]
  cases document.offsetsOf edit.range with
  | error error => rfl
  | ok offsets =>
    change document.edit edit.newText offsets.1 offsets.2 = .error (.closed document.uri)
    rw [TextDocument.edit, ensureOpen, if_pos hclosed]
    rfl

theorem offsetOf_ne_closed (document : TextDocument) (position : Position) (uri : String) :
    document.offsetOf position ≠ .error (.closed uri) := by
  rw [offsetOf]
  split <;> exact fun h => by cases h

/-- The edit is refused because the document is closed exactly if the text has its range. -/
theorem refusal_eq_closed_iff (document : TextDocument) {edit : TextEdit} :
    document.refusal edit = .closed document.uri ↔
      (document.offsetsOf edit.range).isOk = true := by
  rw [refusal]
  cases hrange : document.offsetsOf edit.range with
  | ok offsets => exact ⟨fun _ => rfl, fun _ => rfl⟩
  | error error =>
    refine ⟨fun hclosed => ?_, fun h => by cases h⟩
    obtain rfl : error = .closed document.uri := hclosed
    rw [offsetsOf] at hrange
    cases hstart : document.offsetOf edit.range.start with
    | error error =>
      rw [hstart] at hrange
      obtain rfl := Except.error.inj hrange
      exact absurd hstart (document.offsetOf_ne_closed _ _)
    | ok start =>
      cases hstop : document.offsetOf edit.range.stop with
      | error error =>
        rw [hstart, hstop] at hrange
        obtain rfl := Except.error.inj hrange
        exact absurd hstop (document.offsetOf_ne_closed _ _)
      | ok stop =>
        rw [hstart, hstop] at hrange
        cases hrange

end TextDocument

/-- What is told or asked of clients keeps all documents in order. -/
theorem Session.InOrder.of_keeps {session after : Session} (horder : session.InOrder)
    (hdocuments : after.documents = session.documents) : after.InOrder := by
  intro document hdocument
  rw [hdocuments] at hdocument
  exact horder document hdocument

/-- A save that ends keeps all documents in order. -/
theorem Session.InOrder.finishSave {session after : Session} (horder : session.InOrder) {id : Nat}
    {text : String} (hfinish : session.finishSave id text = .ok after) : after.InOrder := by
  cases hdocument : session.documents[id]? with
  | none =>
    rw [Session.finishSave, Session.find, hdocument] at hfinish
    cases hfinish
  | some document =>
    rw [Session.finishSave_eq hdocument] at hfinish
    obtain rfl := Except.ok.inj hfinish
    obtain ⟨hdocuments, -, -⟩ := Session.tell_keeps
      (session.setDocument id { document with isSaved := true }) (session.listeners document)
      fun client => client.didSave session.files document.uri document.language text
    have hold := horder document (List.mem_of_getElem? hdocument)
    have hset : (session.setDocument id { document with isSaved := true }).InOrder :=
      horder.set ⟨hold.lines, hold.fits, hold.closed⟩
    exact hset.of_keeps hdocuments

namespace Session

variable {session : Session} {id : Nat} {document : TextDocument}
  (hdocument : session.documents[id]? = some document) (hclosed : document.isClosed = true)
include hdocument

/-- When no edits are offered for a document that has none left, its text is to be written, whether
the document is open or not. -/
theorem applySaveEdits_nil (hnone : document.edits = []) :
    session.applySaveEdits id [] = (session, .ok document.text) := by
  have hpending : document.hasPendingEdits = false := by
    rw [TextDocument.hasPendingEdits, hnone]
    rfl
  simp only [applySaveEdits, pushEdits, find_eq hdocument, hpending, Bool.false_eq_true, if_false]

include hclosed

/-- The first edit that is offered for a closed document is refused, and nothing has changed. -/
theorem applySaveEdits_of_closed (first : TextEdit) (rest : List TextEdit) :
    session.applySaveEdits id (first :: rest) = (session, .error (document.refusal first)) := by
  have hpush : session.modifyDocument id (fun document => document.pushTextEdit first) =
      .error (document.refusal first) := by
    rw [modifyDocument, find_eq hdocument]
    change (document.pushTextEdit first).bind _ = _
    rw [document.pushTextEdit_of_closed hclosed]
    rfl
  rw [applySaveEdits, pushEdits, hpush]

end Session

namespace Saving

section Runs

variable {state : State}

/-- As long as clients are asked, the workspace is tidy and its documents are in order. -/
def State.InOrder (state : State) : Prop :=
  state.stage.isAsking = true → Tidy state.session ∧ state.session.InOrder

/-- Every step keeps it. -/
theorem State.InOrder.takes (horder : state.InOrder) {step : Step} {after : State}
    (htakes : state.Takes step after) : after.InOrder := by
  cases htakes with
  | operates operation =>
    intro hasking
    obtain ⟨htidy, hdesk⟩ := horder hasking
    exact ⟨Desk.tidy_run htidy [operation], Desk.inOrder_perform htidy hdesk operation⟩
  | changes place change =>
    intro hasking
    obtain ⟨htidy, hdesk⟩ := horder hasking
    exact ⟨htidy.of_keeps rfl rfl, hdesk.of_keeps rfl⟩
  | finishes hfinish =>
    intro hasking
    obtain ⟨htidy, hdesk⟩ := horder hasking
    exact ⟨Desk.tidy_finishSave htidy hfinish, hdesk.finishSave hfinish⟩
  | waits => exact horder
  | asks hstep hasking hnext hdocuments hworkspace =>
    obtain ⟨htidy, hdesk⟩ := horder hasking
    exact fun _ => ⟨htidy.of_keeps hdocuments hworkspace, hdesk.of_keeps hdocuments⟩
  | edits | refuses | writes | marks | stops => exact fun h => by cases h

theorem State.InOrder.next (horder : state.InOrder) (step : Step) : (state.next step).InOrder :=
  horder.takes (state.takes_next step)

/-- It holds in every run of a save that begins in a run of operations. -/
theorem inOrder_run (files : FileTree) (clients : List Client) (root : String)
    (encoding : PositionEncoding) (operations : List Operation) (id : Nat) (steps : List Step) :
    (run (begin ((Desk.begin files clients root encoding).performAll operations) id)
      steps).InOrder := by
  have htidy := Desk.tidy_begin files clients root encoding
  have horder := Desk.inOrder_begin files clients root encoding
  have hstart : (begin ((Desk.begin files clients root encoding).performAll operations)
      id).InOrder :=
    fun _ => ⟨Desk.tidy_run htidy operations, Desk.inOrder_run htidy horder operations⟩
  exact Run.final_induction _ _ hstart (fun _ step hbefore => hbefore.next step) steps

/-- What comes of a save whose document is closed when the last answer is there. -/
structure IsOutlived (state : State) (document : TextDocument) (edits : List TextEdit) : Prop where
  /-- It fails because the document is closed exactly if there are edits, and the first of them has
  a range of the text. -/
  closed_iff : state.proceed.stage = .ended (.error (.closed document.uri)) ↔
    ∃ first rest, edits = first :: rest ∧ (document.offsetsOf first.range).isOk = true
  /-- With any edits it fails, and changes no document, no client and no file. -/
  failed : ∀ first rest, edits = first :: rest →
    state.proceed = { state with stage := .ended (.error (document.refusal first)) }
  /-- Without edits the text is written, and the clients are told that the document was saved. -/
  saved : edits = [] → ∀ files,
    state.session.files.write document.path (Utf8.encode document.text) = .ok files →
    run state [.proceed, .proceed, .proceed] = state.goOn
      (({ state.session with files }.setDocument state.document
        { document with isSaved := true }).tell (state.session.listeners document) fun client =>
          client.didSave files document.uri document.language document.text) (.ended (.ok ()))
  /-- If the text cannot be written, the save fails with that. -/
  unwritten : edits = [] → ∀ error,
    state.session.files.write document.path (Utf8.encode document.text) = .error error →
    run state [.proceed, .proceed] = { state with stage := .ended (.error (.file error)) }

section Closed

variable {document : TextDocument} {edits : List TextEdit}
  (hdocument : state.session.documents[state.document]? = some document)
include hdocument

/-- A text that cannot be written ends the save. -/
theorem proceed_of_fails {text : String} {error : FileError}
    (hwrite : state.session.files.write document.path (Utf8.encode text) = .error error) :
    State.proceed { state with stage := .writing text } =
      { state with stage := .ended (.error (.file error)) } := by
  have hfailed : state.session.writeText state.document text = .error (.file error) := by
    rw [Session.writeText_eq hdocument, hwrite]
    rfl
  simp only [State.proceed, State.session] at hfailed ⊢
  rw [hfailed]

/-- The text is written, and the clients are told. -/
theorem run_of_writes {text : String} {files : FileTree}
    (hwrite : state.session.files.write document.path (Utf8.encode text) = .ok files) :
    run { state with stage := .writing text } [.proceed, .proceed] = state.goOn
      (({ state.session with files }.setDocument state.document
        { document with isSaved := true }).tell (state.session.listeners document) fun client =>
          client.didSave files document.uri document.language text) (.ended (.ok ())) := by
  have hwritten : state.session.writeText state.document text =
      .ok { state.session with files } := by
    rw [Session.writeText_eq hdocument, hwrite]
    rfl
  have hfirst : State.proceed { state with stage := .writing text } =
      state.goOn { state.session with files } (.written text) := by
    simp only [State.proceed, State.session] at hwritten ⊢
    rw [hwritten]
    rfl
  have hkept : { state.session with files }.documents[state.document]? = some document := hdocument
  have hfinish := Session.finishSave_eq hkept text
  change (State.proceed { state with stage := .writing text }).proceed = _
  rw [hfirst]
  simp only [State.proceed, State.goOn, State.session] at hfinish ⊢
  rw [hfinish]
  rfl

/-- Without edits and with nothing queued, the text is to be written. -/
theorem proceed_of_nothing (hstage : state.stage = .asking [] []) (hnone : document.edits = []) :
    state.proceed = { state with stage := .writing document.text } := by
  rw [State.proceed, hstage]
  dsimp only
  rw [Session.applySaveEdits_nil hdocument hnone]
  rfl

/-- With edits for a closed document the save ends, and nothing has changed. -/
theorem proceed_of_closed (hclosed : document.isClosed = true) {first : TextEdit}
    {rest : List TextEdit} (hstage : state.stage = .asking [] (first :: rest)) :
    state.proceed = { state with stage := .ended (.error (document.refusal first)) } := by
  rw [State.proceed, hstage]
  dsimp only
  rw [Session.applySaveEdits_of_closed hdocument hclosed]
  rfl

/-- What a save comes to is decided by the edits that were offered. -/
theorem isOutlived (hclosed : document.isClosed = true) (hnone : document.edits = [])
    (hstage : state.stage = .asking [] edits) : IsOutlived state document edits := by
  refine ⟨?_, ?_, ?_, ?_⟩
  · cases edits with
    | nil =>
      rw [proceed_of_nothing hdocument hstage hnone]
      constructor
      · intro h
        cases h
      · rintro ⟨first, rest, h, -⟩
        cases h
    | cons first rest =>
      rw [proceed_of_closed hdocument hclosed hstage]
      constructor
      · intro h
        obtain hrefusal := Except.error.inj (Stage.ended.inj h)
        exact ⟨first, rest, rfl, document.refusal_eq_closed_iff.mp hrefusal⟩
      · rintro ⟨_, _, heq, hrange⟩
        obtain ⟨rfl, rfl⟩ := List.cons.inj heq
        rw [document.refusal_eq_closed_iff.mpr hrange]
  · rintro first rest rfl
    exact proceed_of_closed hdocument hclosed hstage
  · rintro rfl files hwrite
    change run state.proceed [.proceed, .proceed] = _
    rw [proceed_of_nothing hdocument hstage hnone]
    exact run_of_writes hdocument hwrite
  · rintro rfl error hwrite
    change state.proceed.proceed = _
    rw [proceed_of_nothing hdocument hstage hnone]
    exact proceed_of_fails hdocument hwrite

end Closed

/-- For every run in which a save has its last answer while the document is closed: the save fails
exactly if a server has offered edits. Otherwise it writes the text and tells the clients, as if the
document were open. -/
theorem isOutlived_run (files : FileTree) (clients : List Client) (root : String)
    (encoding : PositionEncoding) (operations : List Operation) (id : Nat) (steps : List Step)
    {document : TextDocument} {edits : List TextEdit}
    (hstage : (run (begin ((Desk.begin files clients root encoding).performAll operations) id)
      steps).stage = .asking [] edits)
    (hdocument : (run (begin ((Desk.begin files clients root encoding).performAll operations) id)
      steps).session.documents[id]? = some document)
    (hclosed : document.isClosed = true) :
    IsOutlived (run (begin ((Desk.begin files clients root encoding).performAll operations) id)
      steps) document edits := by
  obtain ⟨-, horder⟩ :=
    inOrder_run files clients root encoding operations id steps (by rw [hstage]; rfl)
  have hnone := (horder document (List.mem_of_getElem? hdocument)).closed hclosed
  have hplace := document_run
    (begin ((Desk.begin files clients root encoding).performAll operations) id) steps
  exact isOutlived (by rw [hplace]; exact hdocument) hclosed hnone hstage

end Runs

section Sample

/-- A client whose server is asked for edits before a document is saved, and told afterwards. -/
def savingClient : Client :=
  ((Client.connect "server" .utf16 .standard 0 none).finishHandshake Sample.files
    ⟨⟨none, some (.options ⟨some true, none, none, some true, some (.flag true)⟩), [], none, none⟩,
      none⟩).2

/-- A save that begins after some operations on the files and with the client. -/
def beginSample (operations : List Operation) : State :=
  begin ((Desk.begin Sample.files [savingClient] "/w" .utf16).performAll
    (.attach 0 :: operations)) 0

/-- A document is opened and changed. -/
def changes : List Operation :=
  [.openDocument "a" none, .insert 0 "x" 0, .commit 0]

/-- An insertion at the start of the text. -/
def offered : TextEdit :=
  ⟨⟨⟨0, 0⟩, ⟨0, 0⟩⟩, "y"⟩

/-- The server is asked; after some operations it answers. -/
def answers (operations : List Operation) (answer : Json) : List Step :=
  .proceed :: operations.map .operate ++
    [.client 0 (·.takeResponse (.success (.number 1) answer)), .answer false]

/-- The methods of the notices that the server was sent. -/
def State.heard (state : State) : List String :=
  ((state.session.clients[0]?).map fun client => client.outbox.filterMap fun message =>
    match message with
    | .notification notice => some notice.method
    | _ => none).getD []

/-- With an edit from the server, a save whose document was closed meanwhile is refused. -/
theorem refused_of_offered :
    let state := run (beginSample changes) (answers [.release 0] (encode [offered]))
    ∃ document, state.stage = .asking [] [offered] ∧
      state.session.documents[0]? = some document ∧ document.isClosed = true ∧
      state.proceed.stage = .ended (.error (.closed "file:///w/a")) := by
  refine ⟨_, rfl, rfl, rfl, ?_⟩
  have houtlived := isOutlived_run Sample.files [savingClient] "/w" .utf16 (.attach 0 :: changes) 0
    (answers [.release 0] (encode [offered])) rfl rfl rfl
  exact houtlived.closed_iff.mpr ⟨offered, [], rfl, by decide +kernel⟩

/-- A document that stays open beside a newer copy, which is closed. -/
def closesCopy : List Operation :=
  [.openDocument "a" none, .release 0, .openDocument "a" none, .reopen 0, .release 1]

/-- Without edits from the server, a save whose document was closed meanwhile writes the file, and
the server hears of the saving after it has heard that the document is closed. It also does when a
document is saved that stayed open beside a newer copy which was closed. -/
theorem saved_of_releases :
    let state := run (beginSample changes) (answers [.release 0] .null)
    let saved := run state [.proceed, .proceed, .proceed]
    let beside := run (beginSample closesCopy)
      (answers [] .null ++ [.proceed, .proceed, .proceed])
    (∃ document, state.stage = .asking [] [] ∧ state.session.documents[0]? = some document ∧
      document.isClosed = true) ∧
    state.session.files.readText "/w/a" = .ok "a\nb" ∧
    saved.stage = .ended (.ok ()) ∧ saved.session.files.readText "/w/a" = .ok "xa\nb" ∧
    saved.heard = ["initialized", "textDocument/didOpen", "textDocument/didClose",
      "textDocument/didSave"] ∧
    beside.stage = .ended (.ok ()) ∧
    beside.heard = ["initialized", "textDocument/didOpen", "textDocument/didClose",
      "textDocument/didOpen", "textDocument/didClose", "textDocument/didSave"] := by
  refine ⟨⟨_, rfl, rfl, rfl⟩, ?_, rfl, ?_, ?_, rfl, ?_⟩
  all_goals decide +kernel

end Sample

end Saving

end LanguageClient
