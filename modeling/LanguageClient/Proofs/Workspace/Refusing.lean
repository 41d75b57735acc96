import LanguageClient.Proofs.Workspace.Outliving

/-!
# Saves that are refused

The edits that servers offer before a document is saved are queued one after the other. If one of
them is refused, the save fails before anything is committed or written, but the edits before it
stay in the queue: the document is left as it was only if the very first edit is refused.
-/

namespace LanguageClient

namespace EditQueue

/-- A queue in which an edit has got its place holds one more edit. -/
theorem perm_insert? {queue edits : EditQueue} {edit : PendingEdit}
    (hinsert : queue.insert? edit = some edits) : edits.Perm (queue ++ [edit]) := by
  obtain ⟨before, after, rfl, -, -, hresult⟩ := insert?_eq queue edit
  rw [hresult] at hinsert
  split at hinsert
  · cases hinsert
  · obtain rfl := Option.some.inj hinsert
    rw [List.append_assoc]
    exact (List.perm_append_singleton edit after).symm.append_left before

end EditQueue

namespace TextDocument

variable {document queued : TextDocument} {edit : TextEdit} {edits accepted : List TextEdit}
  {error : DocumentError}

/-- An edit that is given by positions and waits in a queue at its offsets. -/
def IsPlaced (document : TextDocument) (edit : TextEdit) (pending : PendingEdit) : Prop :=
  document.offsetsOf edit.range = .ok (pending.start, pending.stop) ∧ pending.text = edit.newText

/-- These edits wait in the queue besides those that waited before, and nothing else has changed. -/
def Queues (document : TextDocument) (edits : List TextEdit) (queued : TextDocument) : Prop :=
  ∃ queue added, queued = { document with edits := queue } ∧
    queue.Perm (document.edits ++ added) ∧ List.Forall₂ document.IsPlaced edits added

/-- An edit that is queued waits at its offsets. -/
theorem queues_of_pushTextEdit (hpush : document.pushTextEdit edit = .ok queued) :
    document.Queues [edit] queued := by
  simp only [pushTextEdit, bind, Except.bind] at hpush
  cases hoffsets : document.offsetsOf edit.range with
  | error error =>
    rw [hoffsets] at hpush
    cases hpush
  | ok offsets =>
    rw [hoffsets] at hpush
    obtain ⟨-, -, -, -, queue, hinsert, rfl⟩ := edit_eq_ok_iff.mp hpush
    exact ⟨queue, _, rfl, EditQueue.perm_insert? hinsert, .cons ⟨hoffsets, rfl⟩ .nil⟩

/-- Edits that are queued one after the other wait at their offsets. -/
theorem queues_of_foldlM (hpushed : edits.foldlM pushTextEdit document = .ok queued) :
    document.Queues edits queued := by
  induction edits generalizing document with
  | nil =>
    obtain rfl := Except.ok.inj hpushed
    exact ⟨document.edits, [], rfl, by rw [List.append_nil], .nil⟩
  | cons edit rest ih =>
    rw [List.foldlM_cons] at hpushed
    cases hpush : document.pushTextEdit edit with
    | error error =>
      rw [hpush] at hpushed
      cases hpushed
    | ok middle =>
      rw [hpush] at hpushed
      obtain ⟨first, added, rfl, hfirst, hplaced⟩ := queues_of_pushTextEdit hpush
      obtain ⟨queue, more, rfl, hqueue, hrest⟩ := ih hpushed
      refine ⟨queue, added ++ more, rfl, ?_, ?_⟩
      · rw [← List.append_assoc]
        exact hqueue.trans (hfirst.append_right more)
      · exact List.rel_append hplaced hrest

/-- Queueing edits changes the document, if there is any. -/
theorem eq_iff_of_foldlM (hpushed : edits.foldlM pushTextEdit document = .ok queued) :
    queued = document ↔ edits = [] := by
  constructor
  · intro hsame
    obtain ⟨queue, added, rfl, hperm, hplaced⟩ := queues_of_foldlM hpushed
    have hqueue : queue = document.edits := congrArg TextDocument.edits hsame
    have hlength := hperm.length_eq
    rw [hqueue, List.length_append, ← hplaced.length_eq] at hlength
    exact List.length_eq_zero_iff.mp (by omega)
  · rintro rfl
    exact (Except.ok.inj hpushed).symm

/-- One of the edits is refused after those before it were queued. -/
structure IsRefusal (document : TextDocument) (edits accepted : List TextEdit)
    (queued : TextDocument) (error : DocumentError) : Prop where
  accepts : accepted.foldlM pushTextEdit document = .ok queued
  refuses : ∃ refused rest, edits = accepted ++ refused :: rest ∧
    queued.pushTextEdit refused = .error error

/-- If edits cannot be queued one after the other, one of them is the first that is refused. -/
theorem exists_refusal (hfails : edits.foldlM pushTextEdit document = .error error) :
    ∃ accepted queued, document.IsRefusal edits accepted queued error := by
  induction edits generalizing document with
  | nil => cases hfails
  | cons edit rest ih =>
    rw [List.foldlM_cons] at hfails
    cases hpush : document.pushTextEdit edit with
    | error found =>
      rw [hpush] at hfails
      obtain rfl := Except.error.inj hfails
      exact ⟨[], document, rfl, edit, rest, rfl, hpush⟩
    | ok middle =>
      rw [hpush] at hfails
      obtain ⟨accepted, queued, haccepts, refused, later, rfl, hrefused⟩ := ih hfails
      refine ⟨edit :: accepted, queued, ?_, refused, later, rfl, hrefused⟩
      rw [List.foldlM_cons, hpush]
      exact haccepts

end TextDocument

namespace Session

variable {session : Session} {id : Nat} {document queued : TextDocument}
  {edits accepted : List TextEdit} {error : DocumentError}

/-- Putting a document in its own place changes nothing. -/
theorem setDocument_self (hdocument : session.documents[id]? = some document) :
    session.setDocument id document = session := by
  obtain ⟨hlt, hget⟩ := List.getElem?_eq_some_iff.mp hdocument
  rw [setDocument, ← hget, List.set_getElem_self]

/-- The first edit is queued before the others are tried. -/
theorem pushEdits_cons (hdocument : session.documents[id]? = some document) (edit : TextEdit)
    (rest : List TextEdit) :
    session.pushEdits id (edit :: rest) =
      match document.pushTextEdit edit with
      | .ok middle => (session.setDocument id middle).pushEdits id rest
      | .error error => (session, .error error) := by
  rw [pushEdits, modifyDocument, find_eq hdocument]
  simp only [bind, Except.bind]
  cases document.pushTextEdit edit <;> rfl

/-- Edits are queued up to the first one that is refused. -/
theorem pushEdits_eq (hdocument : session.documents[id]? = some document)
    (hrefusal : document.IsRefusal edits accepted queued error) :
    session.pushEdits id edits = (session.setDocument id queued, .error error) := by
  obtain ⟨hpushed, refused, rest, rfl, hrefused⟩ := hrefusal
  induction accepted generalizing session document with
  | nil =>
    obtain rfl := Except.ok.inj hpushed
    rw [List.nil_append, pushEdits_cons hdocument, hrefused, setDocument_self hdocument]
  | cons edit more ih =>
    rw [List.foldlM_cons] at hpushed
    cases hpush : document.pushTextEdit edit with
    | error error =>
      rw [hpush] at hpushed
      cases hpushed
    | ok middle =>
      rw [hpush] at hpushed
      have hmiddle : (session.setDocument id middle).documents[id]? = some middle :=
        List.getElem?_set_self (List.getElem?_eq_some_iff.mp hdocument).1
      rw [List.cons_append, pushEdits_cons hdocument, hpush]
      dsimp only
      rw [ih hmiddle hpushed, setDocument, setDocument, List.set_set]
      rfl

end Session

namespace Saving

section Own

/-- Whether a step belongs to the save: nothing else happens to documents or files. -/
def Step.isOwn : Step → Bool
  | .client .. | .proceed | .answer _ => true
  | .operate _ | .finish .. => false

/-- As long as clients are asked, documents and files are those of the desk. -/
def State.IsUntouched (desk : Desk) (state : State) : Prop :=
  state.stage.isAsking = true →
    state.session.documents = desk.session.documents ∧ state.session.files = desk.session.files

variable {desk : Desk} {state : State}

/-- No step of the save touches documents or files while clients are asked. -/
theorem State.IsUntouched.next (huntouched : state.IsUntouched desk) {step : Step}
    (hown : step.isOwn = true) : (state.next step).IsUntouched desk := by
  have htakes := state.takes_next step
  generalize state.next step = after at htakes ⊢
  cases htakes with
  | operates | finishes => cases hown
  | changes => exact huntouched
  | waits => exact huntouched
  | asks hstep hasking hnext hdocuments hworkspace hfiles =>
    obtain ⟨hdesk, hdesk_files⟩ := huntouched hasking
    exact fun _ => ⟨hdocuments.trans hdesk, hfiles.trans hdesk_files⟩
  | edits | refuses | writes | marks | stops => exact fun h => by cases h

/-- A save that is left to itself touches neither documents nor files while clients are asked. -/
theorem untouched_run (desk : Desk) (id : Nat) {steps : List Step}
    (hown : ∀ step ∈ steps, step.isOwn = true) : (run (begin desk id) steps).IsUntouched desk := by
  induction steps using List.reverseRecOn with
  | nil => exact fun _ => ⟨rfl, rfl⟩
  | append_singleton steps step ih =>
    rw [run, Run.final_concat]
    refine (ih fun earlier hearlier => ?_).next (hown step (by simp))
    exact hown earlier (List.mem_append_left _ hearlier)

end Own

/-- What is left when a save is refused by one of the edits that were offered. -/
structure IsRefused (before after : Session) (id : Nat) (document queued : TextDocument)
    (accepted : List TextEdit) : Prop where
  unwritten : after.files = before.files
  others : ∀ n, n ≠ id → after.documents[n]? = before.documents[n]?
  queued : after.documents[id]? = some queued ∧ document.Queues accepted queued
  alone_iff : after.documents[id]? = some document ↔ accepted = []

/-- A save that is left to itself until the last answer is there ends with an error if the edits
cannot be queued one after the other: nothing was written, no other document has changed, and of its
own document nothing but the queue, in which the edits before the refused one wait. So the document
is left alone exactly if the very first edit is refused. -/
theorem refused_run (desk : Desk) (id : Nat) {steps : List Step}
    (hown : ∀ step ∈ steps, step.isOwn = true) {document : TextDocument} {edits : List TextEdit}
    {error : DocumentError} (hdocument : desk.session.documents[id]? = some document)
    (hstage : (run (begin desk id) steps).stage = .asking [] edits)
    (hfails : edits.foldlM TextDocument.pushTextEdit document = .error error) :
    (run (begin desk id) steps).proceed.stage = .ended (.error error) ∧
      ∃ accepted queued, document.IsRefusal edits accepted queued error ∧
        IsRefused desk.session (run (begin desk id) steps).proceed.session id document queued
          accepted := by
  obtain ⟨accepted, queued, hrefusal⟩ := TextDocument.exists_refusal hfails
  obtain ⟨hdocuments, hfiles⟩ := untouched_run desk id hown (by rw [hstage]; rfl)
  have hplace : (run (begin desk id) steps).document = id := document_run (begin desk id) steps
  generalize run (begin desk id) steps = state at hstage hdocuments hfiles hplace
  subst hplace
  have hfound : state.session.documents[state.document]? = some document :=
    hdocuments ▸ hdocument
  have hproceed : state.proceed =
      state.goOn (state.session.setDocument state.document queued) (.ended (.error error)) := by
    rw [State.proceed, hstage]
    dsimp only
    rw [Session.applySaveEdits, Session.pushEdits_eq hfound hrefusal]
  have hqueued : (state.session.setDocument state.document queued).documents[state.document]? =
      some queued := List.getElem?_set_self (List.getElem?_eq_some_iff.mp hfound).1
  rw [hproceed]
  refine ⟨rfl, accepted, queued, hrefusal, hfiles, fun n hn => ?_, ⟨hqueued, ?_⟩, ?_⟩
  · rw [← hdocuments]
    exact List.getElem?_set_ne (Ne.symm hn)
  · exact TextDocument.queues_of_foldlM hrefusal.accepts
  · rw [← TextDocument.eq_iff_of_foldlM hrefusal.accepts]
    change (state.session.setDocument state.document queued).documents[state.document]? = _ ↔ _
    rw [hqueued, Option.some.injEq]

section Offers

/-- An edit behind the end of the text. -/
def beyond : TextEdit :=
  ⟨⟨⟨9, 0⟩, ⟨9, 0⟩⟩, "z"⟩

/-- A save of a document that was just opened, for which the server has offered these edits. -/
def offers (edits : List TextEdit) : State :=
  run (beginSample [.openDocument "a" none]) (answers [] (encode edits))

/-- If the first edit is refused, the document is left alone. -/
theorem refused_of_beyond : ∃ document,
    (beginSample [.openDocument "a" none]).session.documents[0]? = some document ∧
    (offers [beyond, offered]).stage = .asking [] [beyond, offered] ∧
    (offers [beyond, offered]).proceed.stage =
      .ended (.error (.invalidPosition "file:///w/a" 9 0)) ∧
    (offers [beyond, offered]).proceed.session.documents[0]? = some document := by
  refine ⟨_, rfl, rfl, ?_⟩
  obtain ⟨hended, accepted, queued, ⟨haccepts, refused, rest, hedits, -⟩, hleft⟩ := @refused_run
    ((Desk.begin Sample.files [savingClient] "/w" .utf16).performAll
      [.attach 0, .openDocument "a" none]) 0 (answers [] (encode [beyond, offered]))
    (by decide) _ [beyond, offered] (.invalidPosition "file:///w/a" 9 0) rfl rfl rfl
  refine ⟨hended, hleft.alone_iff.mpr ?_⟩
  cases accepted with
  | nil => rfl
  | cons first more =>
    obtain ⟨rfl, -⟩ := List.cons.inj hedits
    cases haccepts

/-- If the second edit is refused, the first one stays in the queue. -/
theorem not_alone_of_beyond :
    (offers [offered, beyond]).stage = .asking [] [offered, beyond] ∧
    (offers [offered, beyond]).proceed.stage =
      .ended (.error (.invalidPosition "file:///w/a" 9 0)) ∧
    ((beginSample [.openDocument "a" none]).session.documents[0]?).map TextDocument.edits =
      some [] ∧
    ((offers [offered, beyond]).proceed.session.documents[0]?).map TextDocument.edits =
      some [⟨0, 0, "y"⟩] :=
  ⟨rfl, rfl, rfl, by decide +kernel⟩

end Offers

end Saving

end LanguageClient
