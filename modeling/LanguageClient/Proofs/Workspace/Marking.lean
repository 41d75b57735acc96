import LanguageClient.Proofs.Feature.Static
import LanguageClient.Proofs.Workspace.Drifting

/-!
# What the mark of a saved document is worth

A document is marked as saved when it is opened and at the end of each save. A save takes the text,
then it waits until the text is written, and only then it marks the document, without another look
at the text. So the mark is right as long as nothing is committed between the taking of a text and
the mark. If something is, a text that was never written may come to be marked; and if two saves
overlap, the older text may be written after the newer one was marked.
-/

namespace LanguageClient

namespace Saving

/-- The text that a save has taken, as long as it has not marked the document. -/
def Stage.text? : Stage → Option String
  | .writing text | .written text => some text
  | _ => none

/-- What a save does to the documents when it goes on. -/
inductive Moves (state : State) (step : Step) (after : State) : Prop
  | stays (heq : after = state)
  /-- Documents are edited, or clients are asked, and a text may be taken. -/
  | drifts (hdrifts : state.session.Drifts after.session)
      (hlength : after.session.documents.length = state.session.documents.length)
      (hunwritten : ∀ text, after.stage ≠ .written text)
      (htaken : ∀ text, after.stage = .writing text → ∃ document,
        after.session.documents[state.document]? = some document ∧ document.text = text)
  | writes (text : String) (hstep : step = .proceed) (hstage : state.stage = .writing text)
      (hafter : after.stage = .written text)
      (hwritten : (state.session.writeText state.document text).isOk = true)
      (hdocuments : after.session.documents = state.session.documents)
  | marks (text : String) (document : TextDocument) (hstep : step = .proceed)
      (hstage : state.stage = .written text)
      (hdocument : state.session.documents[state.document]? = some document)
      (hafter : after.stage = .ended (.ok ()))
      (hdocuments : after.session.documents =
        state.session.documents.set state.document { document with isSaved := true })

variable {state : State}

/-- Where no document changes and no text is taken, nothing is left to show. -/
theorem Moves.quiet {step : Step} {after : State}
    (hdocuments : after.session.documents = state.session.documents)
    (hstage : after.stage.text? = none) : Moves state step after := by
  refine .drifts (.of_documents hdocuments) (by rw [hdocuments]) ?_ ?_
  · intro text htext
    rw [htext] at hstage
    cases hstage
  · intro text htext
    rw [htext] at hstage
    cases hstage

theorem proceed_writing {text : String} {session : Session} (hstage : state.stage = .writing text)
    (hwrite : state.session.writeText state.document text = .ok session) :
    state.proceed = state.goOn session (.written text) := by
  simp only [State.proceed, hstage, hwrite]

theorem proceed_written {text : String} {session : Session} (hstage : state.stage = .written text)
    (hfinish : state.session.finishSave state.document text = .ok session) :
    state.proceed = state.goOn session (.ended (.ok ())) := by
  simp only [State.proceed, hstage, hfinish]

/-- When the last answer is there, a save edits its document. -/
theorem drifts_applySaveEdits (htidy : Tidy state.session) {edits : List TextEdit}
    {session : Session} {result : Except DocumentError String}
    (happly : state.session.applySaveEdits state.document edits = (session, result)) :
    Tidy session ∧ state.session.Drifts session ∧
      session.documents.length = state.session.documents.length := by
  obtain ⟨turns, hpath, hturns⟩ := Session.path_applySaveEdits htidy state.document edits
  rw [happly] at hpath
  exact ⟨hpath.tidy htidy, Session.Drifts.edits hpath hturns⟩

/-- A save that goes on keeps the workspace tidy. -/
theorem moves_next (htidy : Tidy state.session) {step : Step} (hstep : step.isOfSave = true) :
    Tidy (state.next step).session ∧ Moves state step (state.next step) := by
  have htakes := state.takes_next step
  generalize state.next step = after at htakes
  cases htakes with
  | operates | changes | finishes => cases hstep
  | waits => exact ⟨htidy, .stays rfl⟩
  | @asks _ session stage _ hasking hnext hdocuments hworkspace =>
    refine ⟨htidy.of_keeps hdocuments hworkspace, .quiet hdocuments ?_⟩
    cases stage with
    | asking | waiting => rfl
    | writing | written | ended => cases hnext
  | edits hstage happly =>
    obtain ⟨hafter, hdrifts, hlength⟩ := drifts_applySaveEdits htidy happly
    refine ⟨hafter, .drifts hdrifts hlength (fun _ h => by cases h) fun taken h => ?_⟩
    obtain rfl := Stage.writing.inj h
    exact Session.text_applySaveEdits happly
  | refuses hstage happly =>
    obtain ⟨hafter, hdrifts, hlength⟩ := drifts_applySaveEdits htidy happly
    exact ⟨hafter, .drifts hdrifts hlength (fun _ h => by cases h) fun _ h => by cases h⟩
  | @writes text _ hstage hwrite =>
    obtain ⟨hdocuments, hworkspace⟩ := Session.writeText_keeps hwrite
    refine ⟨htidy.of_keeps hdocuments hworkspace, .writes text rfl hstage rfl ?_ hdocuments⟩
    rw [hwrite]
    rfl
  | @marks text _ hstage hfinish =>
    obtain ⟨document, hdocument, hdocuments⟩ := Session.exists_marked hfinish
    exact ⟨Desk.tidy_finishSave htidy hfinish,
      .marks text document rfl hstage hdocument rfl hdocuments⟩
  | stops => exact ⟨htidy, .quiet rfl rfl⟩

end Saving

namespace Marking

open Saving (Stage)

/-- A save that was begun. -/
structure Save where
  document : Nat
  stage : Stage

/-- A desk at which any number of saves go on. -/
structure State where
  desk : Desk
  saves : List Save
  /-- What each document has last read from its file or written to it. -/
  contents : List String

/-- One thing that can happen at the desk. -/
inductive Step
  | operate (operation : Operation)
  /-- Anything happens to a client. -/
  | client (place : Nat) (change : Client → Client)
  /-- A document is to be saved. -/
  | save (document : Nat)
  /-- A save goes on by itself. -/
  | proceed (place : Nat)
  /-- A save goes on with the answer of a client, or without one if its time is over. -/
  | answer (place : Nat) (isOver : Bool)

namespace State

/-- The session of the desk. -/
def session (state : State) : Session := state.desk.session

/-- What documents have read from their files that were opened meanwhile. -/
def readBetween (session after : Session) : List String :=
  (after.documents.drop session.documents.length).map fun document =>
    (session.files.readText document.path).toOption.getD ""

/-- A save has gone on; if its text is written now, its document has written that. -/
def follow (state : State) (place number : Nat) (stage : Stage) (after : Saving.State) : State where
  desk := after.desk
  saves := state.saves.set place ⟨number, after.stage⟩
  contents :=
    match stage, after.stage with
    | .writing _, .written text => state.contents.set number text
    | _, _ => state.contents

/-- A save goes on, if there is one. -/
def move (state : State) (place : Nat) (step : Saving.Step) : State :=
  match state.saves[place]? with
  | some ⟨number, stage⟩ =>
    state.follow place number stage (Saving.State.next ⟨state.desk, number, stage⟩ step)
  | none => state

/-- What one step leads to. -/
def next (state : State) : Step → State
  | .operate operation =>
    let desk := state.desk.perform operation
    { state with desk, contents := state.contents ++ readBetween state.session desk.session }
  | .client place change =>
    { state with desk := { state.desk with session := state.session.modifyClient place change } }
  | .save document =>
    { state with saves := state.saves ++ [⟨document, (Saving.begin state.desk document).stage⟩] }
  | .proceed place => state.move place .proceed
  | .answer place isOver => state.move place (.answer isOver)

/-- A document that counts as saved has the text that it has last read or written. -/
def IsHonest (state : State) (id : Nat) : Prop :=
  ∀ document, state.session.documents[id]? = some document → document.isSaved = true →
    state.contents[id]? = some document.text

end State

/-- Nothing was done yet. -/
def begin (files : FileTree) (clients : List Client) (root : String)
    (encoding : PositionEncoding) : State :=
  ⟨Desk.begin files clients root encoding, [], []⟩

/-- What a run leads to. -/
abbrev run (start : State) (steps : List Step) : State :=
  Run.final State.next start steps

/-- A step of a save comes too late. -/
inductive IsLate (id : Nat) (state : State) : Step → State → Prop
  /-- Another text is written over that of a marked document. -/
  | overwrites (place : Nat) (text : String) (document : TextDocument) (after : State)
      (hsave : state.saves[place]? = some ⟨id, .writing text⟩)
      (hwritten : (state.session.writeText id text).isOk = true)
      (hdocument : state.session.documents[id]? = some document)
      (hmarked : document.isSaved = true) (hother : document.text ≠ text) :
      IsLate id state (.proceed place) after
  /-- A document is marked whose text is not the one that was last read or written. -/
  | marks (place : Nat) (text : String) (document : TextDocument) (after : State)
      (hsave : state.saves[place]? = some ⟨id, .written text⟩)
      (hdocument : state.session.documents[id]? = some document)
      (hother : state.contents[id]? ≠ some document.text) :
      IsLate id state (.proceed place) after

/-- A step disturbs a save: the edits of the document are committed while a save has its text. -/
def IsDisturbing (id : Nat) (state : State) (_ : Step) (after : State) : Prop :=
  (∃ save ∈ state.saves, save.document = id ∧ save.stage.text?.isSome = true) ∧
    ∃ document later, state.session.documents[id]? = some document ∧
      after.session.documents[id]? = some later ∧ later.version ≠ document.version

section Steps

variable {state : State} {id : Nat}

/-- The workspace is tidy, and of every document it is known what it has last read or written. -/
structure State.IsSound (state : State) : Prop where
  tidy : Tidy state.session
  length : state.contents.length = state.session.documents.length

theorem State.IsSound.lt_length (hsound : state.IsSound) {document : TextDocument}
    (hdocument : state.session.documents[id]? = some document) : id < state.contents.length := by
  rw [hsound.length]
  exact (List.getElem?_eq_some_iff.mp hdocument).1

/-- If a save has a text, it has only now taken it from its document. -/
def Save.TakesNow (session : Session) (save : Save) : Prop :=
  ∀ text, save.stage.text? = some text → save.stage = .writing text ∧
    ∃ document, session.documents[save.document]? = some document ∧ document.text = text

/-- What a step does to the documents and to what they have read or written. -/
inductive State.Goes (state : State) (step : Step) (after : State) : Prop
  /-- Documents drift, and a save may take the text of its document. -/
  | drifts (hdrifts : state.session.Drifts after.session)
      (hcontents : after.contents =
        state.contents ++ State.readBetween state.session after.session)
      (hsaves : ∀ save ∈ after.saves, save ∈ state.saves ∨ save.TakesNow after.session)
  | writes (place number : Nat) (text : String) (hstep : step = .proceed place)
      (hsave : state.saves[place]? = some ⟨number, .writing text⟩)
      (hwritten : (state.session.writeText number text).isOk = true)
      (hdocuments : after.session.documents = state.session.documents)
      (hcontents : after.contents = state.contents.set number text)
      (hsaves : after.saves = state.saves.set place ⟨number, .written text⟩)
  | marks (place number : Nat) (text : String) (document : TextDocument)
      (hstep : step = .proceed place)
      (hsave : state.saves[place]? = some ⟨number, .written text⟩)
      (hdocument : state.session.documents[number]? = some document)
      (hdocuments : after.session.documents =
        (state.session.setDocument number { document with isSaved := true }).documents)
      (hcontents : after.contents = state.contents)
      (hsaves : after.saves = state.saves.set place ⟨number, .ended (.ok ())⟩)

/-- Where no document is new, nothing is read. -/
theorem State.Goes.quiet {step : Step} {after : State}
    (hdrifts : state.session.Drifts after.session)
    (hlength : after.session.documents.length = state.session.documents.length)
    (hcontents : after.contents = state.contents)
    (hsaves : ∀ save ∈ after.saves, save ∈ state.saves ∨ save.TakesNow after.session) :
    state.Goes step after := by
  have hread : State.readBetween state.session after.session = [] := by
    rw [State.readBetween, ← hlength, List.drop_length, List.map_nil]
  refine .drifts hdrifts ?_ hsaves
  rw [hread, List.append_nil, hcontents]

/-- A save that goes on edits, writes or marks its document. -/
theorem goes_follow {place number : Nat} {stage : Stage} {after : Saving.State}
    {step : Saving.Step} {own : Step} (hsave : state.saves[place]? = some ⟨number, stage⟩)
    (hown : step = .proceed → own = .proceed place)
    (hmoves : Saving.Moves ⟨state.desk, number, stage⟩ step after) :
    state.Goes own (state.follow place number stage after) := by
  obtain ⟨desk, document, reached⟩ := after
  have hset {save : Save} (hmem : save ∈ state.saves.set place ⟨number, reached⟩) :
      save ∈ state.saves ∨ save = ⟨number, reached⟩ := List.mem_or_eq_of_mem_set hmem
  cases hmoves with
  | stays heq =>
    cases heq
    refine .quiet (.of_documents rfl) rfl ?_ fun save hmem => ?_
    · cases stage <;> rfl
    · rcases hset hmem with hold | rfl
      · exact Or.inl hold
      · exact Or.inl (List.mem_of_getElem? hsave)
  | drifts hdrifts hlength hunwritten htaken =>
    refine .quiet hdrifts hlength ?_ fun save hmem => ?_
    · cases reached with
      | written text => exact absurd rfl (hunwritten text)
      | _ => cases stage <;> rfl
    · rcases hset hmem with hold | rfl
      · exact Or.inl hold
      · refine Or.inr fun text htext => ?_
        cases reached with
        | writing taken =>
          obtain rfl := Option.some.inj htext
          exact ⟨rfl, htaken taken rfl⟩
        | written taken => exact absurd rfl (hunwritten taken)
        | _ => cases htext
  | writes text hstep hstage hafter hwritten hdocuments =>
    cases hstage
    cases hafter
    exact .writes place number text (hown hstep) hsave hwritten hdocuments rfl rfl
  | marks text marked hstep hstage hdocument hafter hdocuments =>
    cases hstage
    cases hafter
    exact .marks place number text marked (hown hstep) hsave hdocument hdocuments rfl rfl

/-- Every step is one of these. -/
theorem goes_next (htidy : Tidy state.session) (step : Step) :
    Tidy (state.next step).session ∧ state.Goes step (state.next step) := by
  cases step with
  | operate operation =>
    have hdrifts := Desk.drifts_perform htidy operation
    exact ⟨Desk.tidy_run htidy [operation], .drifts hdrifts rfl fun save hmem => Or.inl hmem⟩
  | client place change =>
    exact ⟨htidy.of_keeps rfl rfl, .quiet (.of_documents rfl) rfl rfl fun save hmem => Or.inl hmem⟩
  | save number =>
    refine ⟨htidy, .quiet (.of_documents rfl) rfl rfl fun save hmem => ?_⟩
    rcases List.mem_append.mp hmem with hold | hlast
    · exact Or.inl hold
    · rw [List.mem_singleton.mp hlast]
      refine Or.inr fun text htext => ?_
      rw [Saving.begin] at htext
      dsimp only at htext
      split at htext <;> cases htext
  | proceed place =>
    rw [State.next, State.move]
    split
    · rename_i number stage hsave
      obtain ⟨hafter, hmoves⟩ := @Saving.moves_next ⟨state.desk, number, stage⟩ htidy .proceed rfl
      exact ⟨hafter, goes_follow hsave (fun _ => rfl) hmoves⟩
    · exact ⟨htidy, .quiet (.of_documents rfl) rfl rfl fun save hmem => Or.inl hmem⟩
  | answer place isOver =>
    rw [State.next, State.move]
    split
    · rename_i number stage hsave
      obtain ⟨hafter, hmoves⟩ :=
        @Saving.moves_next ⟨state.desk, number, stage⟩ htidy (.answer isOver) rfl
      exact ⟨hafter, goes_follow hsave (fun h => by cases h) hmoves⟩
    · exact ⟨htidy, .quiet (.of_documents rfl) rfl rfl fun save hmem => Or.inl hmem⟩

/-- Every step keeps the workspace tidy and the contents known. -/
theorem State.IsSound.next (hsound : state.IsSound) (step : Step) : (state.next step).IsSound := by
  obtain ⟨htidy, hgoes⟩ := goes_next hsound.tidy step
  refine ⟨htidy, ?_⟩
  cases hgoes with
  | drifts hdrifts hcontents hsaves =>
    have hle := hdrifts.length_le
    rw [hcontents, List.length_append, State.readBetween, List.length_map, List.length_drop,
      hsound.length]
    omega
  | writes place number text hstep hsave hwritten hdocuments hcontents hsaves =>
    rw [hcontents, List.length_set, hdocuments, hsound.length]
  | marks place number text document hstep hsave hdocument hdocuments hcontents hsaves =>
    rw [hcontents, hdocuments, hsound.length]
    exact List.length_set.symm

/-- A step that is not too late leaves the mark honest. -/
theorem honest_next (hsound : state.IsSound) (hhonest : state.IsHonest id) {step : Step}
    (hlate : ¬ IsLate id state step (state.next step)) : (state.next step).IsHonest id := by
  obtain ⟨-, hgoes⟩ := goes_next hsound.tidy step
  intro later hlater hsaved
  cases hgoes with
  | drifts hdrifts hcontents hsaves =>
    rw [hcontents]
    cases hdocument : state.session.documents[id]? with
    | some document =>
      obtain ⟨found, hfound, hdrift⟩ := hdrifts.kept id document hdocument
      obtain rfl := Option.some.inj (hfound.symm.trans hlater)
      obtain ⟨hbefore, htext⟩ := hdrift.saved hsaved
      have hcontent := hhonest document hdocument hbefore
      rw [List.getElem?_append_left (List.getElem?_eq_some_iff.mp hcontent).1, hcontent, htext]
    | none =>
      have hle := List.getElem?_eq_none_iff.mp hdocument
      have hread := hdrifts.read id later hdocument hlater hsaved
      rw [List.getElem?_append_right (by rw [hsound.length]; exact hle), State.readBetween,
        List.getElem?_map, List.getElem?_drop, hsound.length, Nat.add_sub_cancel' hle, hlater]
      rw [Option.map_some, hread]
      rfl
  | writes place number text hstep hsave hwritten hdocuments hcontents hsaves =>
    rw [hdocuments] at hlater
    rw [hcontents]
    by_cases hnumber : number = id
    · subst hnumber
      subst hstep
      by_contra hother
      rw [List.getElem?_set_self (hsound.lt_length hlater)] at hother
      refine hlate (.overwrites place text later _ hsave hwritten hlater hsaved fun heq => ?_)
      exact hother (congrArg some heq.symm)
    · rw [List.getElem?_set_ne hnumber]
      exact hhonest later hlater hsaved
  | marks place number text document hstep hsave hdocument hdocuments hcontents hsaves =>
    rw [hdocuments] at hlater
    rw [hcontents]
    rcases Session.getElem?_setDocument hlater with ⟨rfl, rfl⟩ | ⟨hnumber, hsame⟩
    · subst hstep
      by_contra hother
      exact hlate (.marks place text document _ hsave hdocument hother)
    · exact hhonest later hsame hsaved

theorem next_proceed {place number : Nat} {stage : Stage}
    (hsave : state.saves[place]? = some ⟨number, stage⟩) :
    state.next (.proceed place) =
      state.follow place number stage (Saving.State.proceed ⟨state.desk, number, stage⟩) := by
  rw [State.next, State.move, hsave]
  rfl

/-- After a step that is too late the mark is wrong. -/
theorem not_honest_of_late (hsound : state.IsSound) {step : Step} {after : State}
    (hlate : IsLate id state step after) : ¬ (state.next step).IsHonest id := by
  intro hhonest
  cases hlate with
  | overwrites place text document _ hsave hwritten hdocument hmarked hother =>
    cases hwrite : state.session.writeText id text with
    | error error =>
      rw [hwrite] at hwritten
      cases hwritten
    | ok session =>
      have hproceed :=
        @Saving.proceed_writing ⟨state.desk, id, .writing text⟩ text session rfl hwrite
      rw [next_proceed hsave, hproceed] at hhonest
      have hkept : session.documents[id]? = some document := by
        rw [(Session.writeText_keeps hwrite).1, hdocument]
      have hset : (state.contents.set id text)[id]? = some text :=
        List.getElem?_set_self (hsound.lt_length hdocument)
      have hsame := (hhonest document hkept hmarked).symm.trans hset
      exact hother (Option.some.inj hsame)
  | marks place text document _ hsave hdocument hother =>
    obtain ⟨session, hfinish⟩ : ∃ session, state.session.finishSave id text = .ok session :=
      ⟨_, Session.finishSave_eq hdocument text⟩
    obtain ⟨found, hfound, hdocuments⟩ := Session.exists_marked hfinish
    obtain rfl := Option.some.inj (hdocument.symm.trans hfound)
    have hproceed :=
      @Saving.proceed_written ⟨state.desk, id, .written text⟩ text session rfl hfinish
    rw [next_proceed hsave, hproceed] at hhonest
    have hmarked : session.documents[id]? = some { document with isSaved := true } := by
      rw [hdocuments]
      exact List.getElem?_set_self (List.getElem?_eq_some_iff.mp hdocument).1
    exact hother (hhonest { document with isSaved := true } hmarked rfl)

/-- The texts that saves have taken are those of their documents, and if they were written then
that is what was written last. -/
def State.Agrees (state : State) (id : Nat) : Prop :=
  ∀ save ∈ state.saves, save.document = id → ∀ text, save.stage.text? = some text →
    ∃ document, state.session.documents[id]? = some document ∧ document.text = text ∧
      (save.stage = .written text → state.contents[id]? = some text)

/-- Where the texts agree, no step is too late. -/
theorem not_late_of_agrees (hagrees : state.Agrees id) {step : Step} {after : State} :
    ¬ IsLate id state step after := by
  intro hlate
  cases hlate with
  | overwrites place text document _ hsave hwritten hdocument hmarked hother =>
    obtain ⟨found, hfound, hsame, -⟩ := hagrees _ (List.mem_of_getElem? hsave) rfl text rfl
    obtain rfl := Option.some.inj (hdocument.symm.trans hfound)
    exact hother hsame
  | marks place text document _ hsave hdocument hother =>
    obtain ⟨found, hfound, hsame, hcontent⟩ := hagrees _ (List.mem_of_getElem? hsave) rfl text rfl
    obtain rfl := Option.some.inj (hdocument.symm.trans hfound)
    exact hother ((hcontent rfl).trans (congrArg some hsame.symm))

/-- A step that disturbs no save keeps the texts in agreement. -/
theorem State.Agrees.next (hagrees : state.Agrees id) (hsound : state.IsSound) {step : Step}
    (hdisturbing : ¬ IsDisturbing id state step (state.next step)) :
    (state.next step).Agrees id := by
  obtain ⟨-, hgoes⟩ := goes_next hsound.tidy step
  intro save hmem hid text htext
  cases hgoes with
  | drifts hdrifts hcontents hsaves =>
    rcases hsaves save hmem with hold | htaken
    · obtain ⟨document, hdocument, hsame, hwritten⟩ := hagrees save hold hid text htext
      obtain ⟨later, hlater, hdrift⟩ := hdrifts.kept id document hdocument
      have hversion : later.version = document.version := by
        by_contra hversion
        refine hdisturbing ⟨⟨save, hold, hid, ?_⟩, document, later, hdocument, hlater, hversion⟩
        rw [htext]
        rfl
      refine ⟨later, hlater, (hdrift.text hversion).trans hsame, fun hstage => ?_⟩
      have hcontent := hwritten hstage
      rw [hcontents, List.getElem?_append_left (List.getElem?_eq_some_iff.mp hcontent).1, hcontent]
    · obtain ⟨hstage, document, hdocument, hsame⟩ := htaken text htext
      rw [hid] at hdocument
      refine ⟨document, hdocument, hsame, fun hwritten => ?_⟩
      rw [hstage] at hwritten
      cases hwritten
  | writes place number written hstep hsave hdone hdocuments hcontents hsaves =>
    rw [hdocuments, hcontents]
    have hmover := hagrees _ (List.mem_of_getElem? hsave)
    rw [hsaves] at hmem
    rcases List.mem_or_eq_of_mem_set hmem with hold | rfl
    · obtain ⟨document, hdocument, hsame, hcontent⟩ := hagrees save hold hid text htext
      refine ⟨document, hdocument, hsame, fun hstage => ?_⟩
      by_cases hnumber : number = id
      · obtain ⟨found, hfound, hmoved, -⟩ := hmover hnumber written rfl
        obtain rfl := Option.some.inj (hdocument.symm.trans hfound)
        have hlt := (List.getElem?_eq_some_iff.mp (hcontent hstage)).1
        rw [hnumber, List.getElem?_set_self hlt, ← hmoved, hsame]
      · rw [List.getElem?_set_ne hnumber]
        exact hcontent hstage
    · obtain rfl := Option.some.inj htext
      obtain ⟨document, hdocument, hsame, -⟩ := hmover hid written rfl
      have hnumber : number = id := hid
      refine ⟨document, hdocument, hsame, fun _ => ?_⟩
      rw [hnumber]
      exact List.getElem?_set_self (hsound.lt_length hdocument)
  | marks place number written document hstep hsave hdocument hdocuments hcontents hsaves =>
    rw [hdocuments, hcontents]
    rw [hsaves] at hmem
    rcases List.mem_or_eq_of_mem_set hmem with hold | rfl
    · obtain ⟨found, hfound, hsame, hcontent⟩ := hagrees save hold hid text htext
      by_cases hnumber : number = id
      · subst hnumber
        obtain rfl := Option.some.inj (hdocument.symm.trans hfound)
        have hlt := (List.getElem?_eq_some_iff.mp hdocument).1
        exact ⟨_, List.getElem?_set_self hlt, hsame, hcontent⟩
      · exact ⟨found, (List.getElem?_set_ne hnumber).trans hfound, hsame, hcontent⟩
    · cases htext

end Steps

section Runs

variable {start : State} {id : Nat}

theorem isSound_run (hsound : start.IsSound) (steps : List Step) : (run start steps).IsSound :=
  Run.final_induction _ _ hsound (fun _ step hbefore => hbefore.next step) steps

/-- The mark is right at every point of a run exactly if no step of it comes too late. -/
theorem honest_iff (hsound : start.IsSound) (hhonest : start.IsHonest id) (steps : List Step) :
    (∀ before, before <+: steps → (run start before).IsHonest id) ↔
      ¬ Run.Passed State.next start steps (IsLate id) := by
  induction steps using List.reverseRecOn with
  | nil =>
    constructor
    · rintro - ⟨before, step, after, hsplit, -⟩
      simp at hsplit
    · intro _ before hbegins
      rw [List.prefix_nil.mp hbegins]
      exact hhonest
  | append_singleton steps step ih =>
    rw [Run.passed_concat, not_or, ← ih]
    have hlast : run start (steps ++ [step]) = (run start steps).next step :=
      Run.final_concat _ _ _ _
    constructor
    · intro hall
      refine ⟨fun before hbegins => hall before (hbegins.trans (List.prefix_append _ _)), ?_⟩
      intro hlate
      have hnot := not_honest_of_late (isSound_run hsound steps) hlate
      rw [← hlast] at hnot
      exact hnot (hall _ (List.prefix_refl _))
    · rintro ⟨hall, hlate⟩ before hbegins
      rcases List.prefix_concat_iff.mp hbegins with rfl | hshorter
      · rw [hlast]
        refine honest_next (isSound_run hsound steps) (hall steps (List.prefix_refl _)) ?_
        rwa [← hlast]
      · exact hall before hshorter

/-- Where no save is disturbed, the texts agree at the end of a run, and no step came too late. -/
theorem agrees_run (hsound : start.IsSound) (hagrees : start.Agrees id) {steps : List Step}
    (hundisturbed : ¬ Run.Passed State.next start steps (IsDisturbing id)) :
    (run start steps).Agrees id ∧ ¬ Run.Passed State.next start steps (IsLate id) := by
  induction steps using List.reverseRecOn with
  | nil =>
    refine ⟨hagrees, ?_⟩
    rintro ⟨before, step, after, hsplit, -⟩
    simp at hsplit
  | append_singleton steps step ih =>
    rw [Run.passed_concat, not_or] at hundisturbed
    obtain ⟨hbefore, hlast⟩ := hundisturbed
    obtain ⟨hnow, hnone⟩ := ih hbefore
    rw [Run.final_concat] at hlast
    rw [run, Run.final_concat, Run.passed_concat, not_or]
    exact ⟨hnow.next (isSound_run hsound steps) hlast, hnone, not_late_of_agrees hnow⟩

/-- For every run and every document: at every point the mark of the document is right exactly if
no save writes another text over that of a marked document, or marks a document whose text was not
written. Without a commit of the document between the taking of a text and the mark it always is. -/
theorem honest_iff_run (files : FileTree) (clients : List Client) (root : String)
    (encoding : PositionEncoding) (id : Nat) (steps : List Step) :
    ((∀ before, before <+: steps → (run (begin files clients root encoding) before).IsHonest id) ↔
      ¬ Run.Passed State.next (begin files clients root encoding) steps (IsLate id)) ∧
    (¬ Run.Passed State.next (begin files clients root encoding) steps (IsDisturbing id) →
      ∀ before, before <+: steps →
        (run (begin files clients root encoding) before).IsHonest id) := by
  have hsound : (begin files clients root encoding).IsSound :=
    ⟨Desk.tidy_begin files clients root encoding, rfl⟩
  have hhonest : (begin files clients root encoding).IsHonest id := by
    intro document hdocument
    cases hdocument
  have hagrees : (begin files clients root encoding).Agrees id := by
    intro save hmem
    cases hmem
  have hiff := honest_iff hsound hhonest steps
  exact ⟨hiff, fun hundisturbed => hiff.mpr (agrees_run hsound hagrees hundisturbed).2⟩

end Runs

section Sample

/-- A commit while the text is being written. -/
def commitsMeanwhile : List Step :=
  [.operate (.openDocument "a" none), .operate (.insert 0 "x" 0), .operate (.commit 0),
    .save 0, .proceed 0, .operate (.insert 0 "y" 0), .operate (.commit 0), .proceed 0, .proceed 0]

/-- Two saves of which the first is the last to write. -/
def savesMeanwhile : List Step :=
  [.operate (.openDocument "a" none), .operate (.insert 0 "x" 0), .operate (.commit 0),
    .save 0, .proceed 0, .operate (.insert 0 "y" 0), .operate (.commit 0),
    .save 0, .proceed 1, .proceed 1, .proceed 1, .proceed 0]

/-- In the end the document is marked with a text that is not in its file. -/
def MarksUnwritten (steps : List Step) : Prop :=
  ∃ document,
    (run (begin Sample.files [] "/w" .utf16) steps).session.documents[0]? = some document ∧
    document.isSaved = true ∧ document.text = "yxa\nb" ∧
    (run (begin Sample.files [] "/w" .utf16) steps).contents = ["xa\nb"] ∧
    (run (begin Sample.files [] "/w" .utf16) steps).session.files.readText "/w/a" = .ok "xa\nb"

/-- The mark is wrong after a commit during the write, and after two saves that overlap. -/
theorem not_honest_of_meanwhile :
    MarksUnwritten commitsMeanwhile ∧
      ¬ (run (begin Sample.files [] "/w" .utf16) commitsMeanwhile).IsHonest 0 ∧
    MarksUnwritten savesMeanwhile ∧
      ¬ (run (begin Sample.files [] "/w" .utf16) savesMeanwhile).IsHonest 0 := by
  refine ⟨⟨_, rfl, rfl, ?_, ?_, ?_⟩, ?_, ⟨_, rfl, rfl, ?_, ?_, ?_⟩, ?_⟩
  · decide +kernel
  · decide +kernel
  · decide +kernel
  · intro hhonest
    exact absurd (hhonest _ rfl rfl) (by decide +kernel)
  · decide +kernel
  · decide +kernel
  · decide +kernel
  · intro hhonest
    exact absurd (hhonest _ rfl rfl) (by decide +kernel)

end Sample

end Marking

end LanguageClient
