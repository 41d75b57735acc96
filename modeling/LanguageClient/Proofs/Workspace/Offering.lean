import LanguageClient.Proofs.Workspace.Growing
import LanguageClient.Proofs.Workspace.Refusing

/-!
# Edits for a text that is gone

A server that is asked before a document is saved computes its edits for the text that it has then.
The request names no version, and the places of the answer are looked up in the text that the
document has when it arrives. If edits of the document were committed meanwhile, these places may
not be the ones that were meant; still the edits are queued, up to the first that the text refuses.
-/

namespace LanguageClient

/-- The edits that are queued, one after the other, up to the first that is refused. -/
def TextDocument.accepted (document : TextDocument) : List TextEdit → List TextEdit
  | [] => []
  | edit :: rest =>
    match document.pushTextEdit edit with
    | .ok queued => edit :: queued.accepted rest
    | .error _ => []

/-- No edit is queued exactly if there is none or the first one is refused. -/
theorem TextDocument.accepted_eq_nil_iff (document : TextDocument) (edits : List TextEdit) :
    document.accepted edits = [] ↔ ∀ first rest, edits = first :: rest →
      ∃ error, document.pushTextEdit first = .error error := by
  cases edits with
  | nil => simp [accepted]
  | cons first rest =>
    rw [accepted]
    cases hpush : document.pushTextEdit first with
    | ok queued => simp [hpush]
    | error error => simp [hpush]

/-- What has come of edits that were offered for a document. -/
structure Session.Pushes (session : Session) (id : Nat) (document : TextDocument)
    (edits : List TextEdit) (queued : TextDocument) (result : Except DocumentError Unit) :
    Prop where
  pushed : session.pushEdits id edits = (session.setDocument id queued, result)
  accepts : (document.accepted edits).foldlM TextDocument.pushTextEdit document = .ok queued
  succeeds_iff : result = .ok () ↔ document.accepted edits = edits

/-- Just those edits are queued that come before the first one that is refused. -/
theorem Session.exists_pushes {session : Session} {id : Nat} {document : TextDocument}
    (hdocument : session.documents[id]? = some document) (edits : List TextEdit) :
    ∃ queued result, session.Pushes id document edits queued result := by
  induction edits generalizing session document with
  | nil =>
    refine ⟨document, .ok (), ?_, rfl, by simp [TextDocument.accepted]⟩
    rw [pushEdits, setDocument_self hdocument]
  | cons edit rest ih =>
    cases hpush : document.pushTextEdit edit with
    | error error =>
      have hnone : document.accepted (edit :: rest) = [] := by rw [TextDocument.accepted, hpush]
      refine ⟨document, .error error, ?_, ?_, ?_⟩
      · rw [pushEdits_cons hdocument, hpush, setDocument_self hdocument]
      · rw [hnone]
        rfl
      · simp [hnone]
    | ok middle =>
      have hmiddle : (session.setDocument id middle).documents[id]? = some middle :=
        List.getElem?_set_self (List.getElem?_eq_some_iff.mp hdocument).1
      have hfirst : document.accepted (edit :: rest) = edit :: middle.accepted rest := by
        rw [TextDocument.accepted, hpush]
      obtain ⟨queued, result, hpushed, haccepts, hsucceeds⟩ := ih hmiddle
      refine ⟨queued, result, ?_, ?_, ?_⟩
      · rw [pushEdits_cons hdocument, hpush]
        dsimp only
        rw [hpushed, setDocument, setDocument, List.set_set]
        rfl
      · rw [hfirst, List.foldlM_cons, hpush]
        exact haccepts
      · rw [hfirst, hsucceeds, List.cons.injEq, and_iff_right rfl]

namespace Saving

/-- Whether a step commits edits of the document that is saved. -/
def State.commits (state : State) : Step → Bool
  | .operate operation => state.desk.commits state.document operation
  | _ => false

/-- How often a run commits edits of the document that is saved, beside the commit of the save. -/
def commitsIn : State → List Step → Nat
  | _, [] => 0
  | state, step :: rest => (state.commits step).toNat + commitsIn (state.next step) rest

section Runs

variable {state : State} {asked : TextDocument} {commits : Nat}

/-- As long as clients are asked, the document is what has become of an earlier one with so many
commits. -/
def State.Keeps (state : State) (asked : TextDocument) (commits : Nat) : Prop :=
  state.stage.isAsking = true →
    ∃ later, state.session.documents[state.document]? = some later ∧ asked.Becomes commits later

/-- A session that grows keeps it, unless the save comes back to the clients. -/
theorem State.Keeps.grow (hkeeps : state.Keeps asked commits) {session : Session}
    {more : Nat → Nat} (hgrows : state.session.Grows more session) {stage : Stage}
    (hstage : stage.isAsking = true → state.stage.isAsking = true) :
    (state.goOn session stage).Keeps asked (commits + more state.document) := by
  intro hasking
  obtain ⟨middle, hmiddle, hbecomes⟩ := hkeeps (hstage hasking)
  obtain ⟨later, hlater, hmore⟩ := hgrows state.document middle hmiddle
  exact ⟨later, hlater, hbecomes.trans hmore⟩

/-- Only operations at the desk commit edits. -/
theorem State.commits_eq_false {step : Step} (hstep : ∀ operation, step ≠ .operate operation) :
    state.commits step = false := by
  cases step with
  | operate operation => exact absurd rfl (hstep operation)
  | client | finish | proceed | answer => rfl

/-- Every step keeps it, and only commits of the document count. -/
theorem State.Keeps.next (hkeeps : state.Keeps asked commits) (horder : state.InOrder)
    (step : Step) : (state.next step).Keeps asked (commits + (state.commits step).toNat) := by
  have htakes := state.takes_next step
  generalize state.next step = after at htakes ⊢
  cases htakes with
  | operates operation =>
    intro hasking
    have hgrows := Desk.grows_perform (horder hasking).1 operation
    exact hkeeps.grow hgrows id hasking
  | changes => exact hkeeps
  | @finishes id text session hfinish =>
    obtain ⟨document, hdocument, hdocuments⟩ := Session.exists_marked hfinish
    have hset : state.session.Grows (fun _ => 0)
        (state.session.setDocument id { document with isSaved := true }) :=
      .keep hdocument rfl rfl rfl
    exact hkeeps.grow (hset.trans (.of_documents hdocuments fun _ => rfl)) fun h => h
  | waits hstep =>
    rw [State.commits_eq_false hstep]
    exact hkeeps
  | @asks _ session stage hstep hasking hnext hdocuments =>
    rw [State.commits_eq_false (by rintro operation rfl; cases hstep)]
    exact hkeeps.grow (.of_documents hdocuments fun _ => rfl) fun _ => hasking
  | edits | refuses | writes | marks | stops => exact fun h => by cases h

/-- Over a run the commits add up. -/
theorem State.Keeps.run (hkeeps : state.Keeps asked commits) (horder : state.InOrder)
    (steps : List Step) :
    (Saving.run state steps).Keeps asked (commits + commitsIn state steps) := by
  induction steps generalizing state commits with
  | nil => exact hkeeps
  | cons step rest ih =>
    have hrest := ih (hkeeps.next horder step) (horder.next step)
    rwa [Nat.add_assoc] at hrest

/-- Every edit that is queued is queued in the text that the server was asked for, and after a
commit none is. -/
structure Meets (asked later : TextDocument) (commits : Nat) (edits : List TextEdit) : Prop where
  text : ∀ edit ∈ later.accepted edits, later.text = asked.text
  uncommitted : 0 < commits → later.accepted edits = []

/-- What a save does with the edits that were offered when the last answer is there. -/
structure Offers (state : State) (asked later queued : TextDocument) (commits : Nat)
    (edits : List TextEdit) : Prop where
  document : state.session.documents[state.document]? = some later
  becomes : asked.Becomes commits later
  /-- The edits before the first refused one wait at their places in the later text. -/
  queues : later.Queues (later.accepted edits) queued
  /-- If one was refused, the save has ended; the edits before it stay in the queue. -/
  refused : later.accepted edits ≠ edits → ∃ error,
    state.proceed = state.goOn (state.session.setDocument state.document queued)
      (.ended (.error error))
  /-- Otherwise the save goes on as if its edits had waited there before. -/
  taken : later.accepted edits = edits → state.proceed =
    (state.goOn (state.session.setDocument state.document queued) (.asking [] [])).proceed
  meets_iff : Meets asked later commits edits ↔ commits = 0 ∨
    ∀ first rest, edits = first :: rest → ∃ error, later.pushTextEdit first = .error error

theorem meets_iff {later : TextDocument} (hbecomes : asked.Becomes commits later)
    (edits : List TextEdit) : Meets asked later commits edits ↔ commits = 0 ∨
      ∀ first rest, edits = first :: rest → ∃ error, later.pushTextEdit first = .error error := by
  rw [← later.accepted_eq_nil_iff]
  constructor
  · rintro ⟨-, huncommitted⟩
    by_cases hcommits : commits = 0
    · exact Or.inl hcommits
    · exact Or.inr (huncommitted (by omega))
  · rintro (hcommits | hnone)
    · exact ⟨fun _ _ => hbecomes.text hcommits, fun h => by omega⟩
    · refine ⟨fun edit hedit => ?_, fun _ => hnone⟩
      rw [hnone] at hedit
      cases hedit

/-- When the last answer is there, the edits are looked up in the text of that time, whatever the
text was when the server was asked. -/
theorem exists_offers {later : TextDocument} {edits : List TextEdit}
    (hstage : state.stage = .asking [] edits)
    (hlater : state.session.documents[state.document]? = some later)
    (hbecomes : asked.Becomes commits later) :
    ∃ queued, Offers state asked later queued commits edits := by
  obtain ⟨queued, result, hpushed, haccepts, hsucceeds⟩ := Session.exists_pushes hlater edits
  refine ⟨queued, hlater, hbecomes, TextDocument.queues_of_foldlM haccepts, ?_, ?_,
    meets_iff hbecomes edits⟩
  · intro hrefused
    cases result with
    | ok done => exact absurd (hsucceeds.mp rfl) hrefused
    | error error =>
      refine ⟨error, ?_⟩
      rw [State.proceed, hstage]
      dsimp only
      rw [Session.applySaveEdits, hpushed]
  · intro hall
    rw [hsucceeds.mpr hall] at hpushed
    rw [State.proceed, hstage]
    dsimp only
    rw [Session.applySaveEdits, hpushed]
    rfl

/-- For every run in which a save asks a single client and comes to its answer: the request is sent
at one text, and the edits of the answer are queued in the text that has become of it. They meet the
text that they were made for exactly if nothing was committed in between, or else the text of now
happens to refuse the first of them. -/
theorem exists_offers_run (files : FileTree) (clients : List Client) (root : String)
    (encoding : PositionEncoding) (operations : List Operation) (id place : Nat)
    (before between : List Step) {asked : TextDocument} {edits : List TextEdit}
    (hasking : (run (begin ((Desk.begin files clients root encoding).performAll operations) id)
      before).stage = .asking [place] [])
    (hasked : (run (begin ((Desk.begin files clients root encoding).performAll operations) id)
      before).session.documents[id]? = some asked)
    (hanswered : (run (begin ((Desk.begin files clients root encoding).performAll operations) id)
      (before ++ .proceed :: between)).stage = .asking [] edits) :
    (run (begin ((Desk.begin files clients root encoding).performAll operations) id)
      (before ++ [.proceed])).session.documents[id]? = some asked ∧ ∃ later queued, Offers
      (run (begin ((Desk.begin files clients root encoding).performAll operations) id)
        (before ++ .proceed :: between)) asked later queued
      (commitsIn (run (begin ((Desk.begin files clients root encoding).performAll operations) id)
        before) (.proceed :: between)) edits := by
  have horder := inOrder_run files clients root encoding operations id before
  have hplace := document_run
    (begin ((Desk.begin files clients root encoding).performAll operations) id) before
  have hsplit : run (begin ((Desk.begin files clients root encoding).performAll operations) id)
      (before ++ .proceed :: between) =
      run (run (begin ((Desk.begin files clients root encoding).performAll operations) id) before)
        (.proceed :: between) := List.foldl_append
  have hsent : run (begin ((Desk.begin files clients root encoding).performAll operations) id)
      (before ++ [.proceed]) =
      (run (begin ((Desk.begin files clients root encoding).performAll operations) id)
        before).proceed := Run.final_concat _ _ _ _
  rw [hsplit] at hanswered ⊢
  rw [hsent]
  generalize run (begin ((Desk.begin files clients root encoding).performAll operations) id)
    before = state at *
  have hfound : state.session.documents[state.document]? = some asked := hplace.symm ▸ hasked
  have hstart : state.Keeps asked 0 := fun _ => ⟨asked, hfound, rfl, rfl, fun _ => rfl⟩
  constructor
  · rw [documents_proceed hasking]
    exact hasked
  · obtain ⟨later, hlater, hbecomes⟩ :=
      hstart.run horder (.proceed :: between) (by rw [hanswered]; rfl)
    rw [Nat.zero_add] at hbecomes
    obtain ⟨queued, hoffers⟩ := exists_offers hanswered hlater hbecomes
    exact ⟨later, queued, hoffers⟩

end Runs

section Sample

/-- An insertion behind the first character of the text. -/
def behindFirst : TextEdit :=
  ⟨⟨⟨0, 1⟩, ⟨0, 1⟩⟩, "y"⟩

/-- The answer to a save of a document that was just opened; meanwhile some operations are done. -/
def answered (operations : List Operation) : State :=
  run (beginSample [.openDocument "a" none]) (answers operations (encode [behindFirst]))

/-- An edit that waits in the queue is not yet in the text: the answer still meets its text. -/
theorem meets_of_uncommitted : ∃ asked later queued,
    (beginSample [.openDocument "a" none]).session.documents[0]? = some asked ∧
    Offers (answered [.insert 0 "x" 0]) asked later queued 0 [behindFirst] ∧
    Meets asked later 0 [behindFirst] := by
  have hoffers := exists_offers_run Sample.files [savingClient] "/w" .utf16
    [.attach 0, .openDocument "a" none] 0 0 [] (.operate (.insert 0 "x" 0) ::
      [.client 0 (·.takeResponse (.success (.number 1) (encode [behindFirst]))), .answer false])
    rfl rfl rfl
  obtain ⟨-, later, queued, hoffers⟩ := hoffers
  exact ⟨_, later, queued, rfl, hoffers, hoffers.meets_iff.mpr (Or.inl rfl)⟩

/-- After a commit the answer is put into another text than it was made for, and written there. -/
theorem not_meets_of_commit : ∃ asked later,
    (beginSample [.openDocument "a" none]).session.documents[0]? = some asked ∧
    (answered [.insert 0 "x" 0, .commit 0]).stage = .asking [] [behindFirst] ∧
    (answered [.insert 0 "x" 0, .commit 0]).session.documents[0]? = some later ∧
    asked.text = "a\nb" ∧ later.text = "xa\nb" ∧
    ¬ Meets asked later 1 [behindFirst] ∧
    ((answered [.insert 0 "x" 0, .commit 0]).proceed.session.documents[0]?).map
      TextDocument.text = some "xya\nb" := by
  refine ⟨_, _, rfl, rfl, rfl, ?_, ?_, ?_, ?_⟩
  · decide +kernel
  · decide +kernel
  · intro hmeets
    have hnone := congrArg List.length (hmeets.uncommitted Nat.one_pos)
    exact absurd hnone (by decide +kernel)
  · decide +kernel

end Sample

end Saving

end LanguageClient
