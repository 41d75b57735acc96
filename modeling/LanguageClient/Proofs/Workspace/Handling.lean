import LanguageClient.Proofs.Document.Changes
import LanguageClient.Proofs.Workspace.Desk
import LanguageClient.Proofs.Workspace.Tidy

/-!
# What single operations do to documents

Opening, holding, editing, committing and closing a document is one shift, if the operation is not
refused. Giving a hold back closes a stray document only if the workspace has another one at its
address, and only a document that is not alone is opened again beside another one.
-/

namespace LanguageClient

namespace Session

variable {session after : Session} {id : Nat} {document : TextDocument}

/-- Changing a document succeeds if there is one and the change is not refused. -/
theorem modifyDocument_ok {change : TextDocument → Except DocumentError TextDocument}
    (hafter : session.modifyDocument id change = .ok after) :
    ∃ document changed, session.documents[id]? = some document ∧ change document = .ok changed ∧
      after = session.setDocument id changed := by
  simp only [modifyDocument, find] at hafter
  cases hdocument : session.documents[id]? with
  | none =>
    rw [hdocument] at hafter
    cases hafter
  | some document =>
    rw [hdocument] at hafter
    simp only [bind, Except.bind] at hafter
    cases hchange : change document with
    | error error =>
      rw [hchange] at hafter
      cases hafter
    | ok changed =>
      rw [hchange] at hafter
      exact ⟨document, changed, rfl, hchange, (Except.ok.inj hafter).symm⟩

/-- One more hold is taken on a document that is open. -/
theorem acquire_eq (hafter : session.acquire id = .ok after) : ∃ document,
    session.documents[id]? = some document ∧ document.isClosed = false ∧
    after = session.setDocument id { document with holds := document.holds + 1 } := by
  obtain ⟨document, changed, hdocument, hchange, rfl⟩ := modifyDocument_ok hafter
  simp only [TextDocument.acquire, TextDocument.ensureOpen] at hchange
  cases hclosed : document.isClosed with
  | true =>
    rw [hclosed] at hchange
    cases hchange
  | false =>
    rw [hclosed] at hchange
    obtain rfl := Except.ok.inj hchange
    exact ⟨document, hdocument, hclosed, rfl⟩

/-- The workspace of a document is the one of the session. -/
theorem workspaceOf?_eq (hown : session.workspace.map Workspace.number = some document.workspace) :
    session.workspaceOf? document = session.workspace := by
  obtain ⟨workspace, hworkspace, hnumber⟩ := Option.map_eq_some_iff.mp hown
  rw [workspaceOf?, hworkspace, Option.filter_some, if_pos (beq_iff_eq.mpr hnumber)]

/-- All clients of the workspace are told about its documents. -/
theorem listeners_eq (hown : session.workspace.map Workspace.number = some document.workspace) :
    session.listeners document = (session.workspace.map Workspace.clients).getD [] := by
  rw [listeners, workspaceOf?_eq hown]

/-- The workspace of a document stays its own while it keeps its number. -/
theorem number_modifyWorkspace {change : Workspace → Workspace}
    (hown : session.workspace.map Workspace.number = some document.workspace)
    (hchange : ∀ workspace, (change workspace).number = workspace.number) :
    (session.modifyWorkspace change).workspace.map Workspace.number = some document.workspace := by
  rw [modifyWorkspace, Option.map_map, ← hown]
  exact congrArg (Option.map · session.workspace) (funext hchange)

/-- A document of the workspace that was closed is taken out, and all clients are told. -/
theorem afterClose_eq (hown : session.workspace.map Workspace.number = some document.workspace)
    (isStray : Bool) :
    session.afterClose id document =
      (session.modifyWorkspace (·.dropDocument document.uri id)).say
        (.closed document isStray) := by
  obtain ⟨workspace, hworkspace, hnumber⟩ := Option.map_eq_some_iff.mp hown
  have hlater : (session.modifyWorkspace (·.dropDocument document.uri id)).workspace.map
      Workspace.number = some document.workspace := number_modifyWorkspace hown fun _ => rfl
  rw [afterClose, workspaceOf?_eq hown, hworkspace]
  exact congrArg
    (fun ids => (session.modifyWorkspace (·.dropDocument document.uri id)).tell ids _)
    (listeners_eq hlater)

end Session

section Documents

variable {session after : Session} {id : Nat} {document : TextDocument}

/-- A document of a tidy workspace is its own. -/
theorem Tidy.own_of_getElem? (htidy : Tidy session)
    (hdocument : session.documents[id]? = some document) :
    session.workspace.map Workspace.number = some document.workspace :=
  htidy.own document (List.mem_of_getElem? hdocument)

/-- One more hold on an open document. -/
theorem shift_acquire (hafter : session.acquire id = .ok after) : Shift session .quiet after := by
  obtain ⟨document, hdocument, hopen, rfl⟩ := Session.acquire_eq hafter
  exact .held id document _ hdocument hopen (Nat.succ_pos _)

/-- An open document can be held. -/
theorem acquire_of_live (hdocument : session.documents[id]? = some document)
    (hopen : document.isClosed = false) : ∃ after, session.acquire id = .ok after := by
  simp [Session.acquire, Session.modifyDocument, Session.find, hdocument, TextDocument.acquire,
    TextDocument.ensureOpen, hopen, bind, Except.bind, pure, Except.pure]

/-- The last hold closes a document and drops its edits, every other one leaves it open. -/
theorem release_ok {changed : TextDocument} {isLast : Bool}
    (hrelease : document.release = .ok (changed, isLast)) : document.isClosed = false ∧
      (isLast = true ∧ document.holds = 1 ∧ changed = document.closed ∨
      isLast = false ∧ 1 < document.holds ∧
        changed = { document with holds := document.holds - 1 }) := by
  simp only [TextDocument.release, TextDocument.ensureOpen, bind, Except.bind, pure,
    Except.pure] at hrelease
  cases hclosed : document.isClosed with
  | true =>
    rw [hclosed] at hrelease
    cases hrelease
  | false =>
    have hholds : document.holds ≠ 0 := beq_eq_false_iff_ne.mp hclosed
    rw [hclosed] at hrelease
    simp only [Bool.false_eq_true, if_false, TextDocument.isClosed, beq_iff_eq] at hrelease
    refine ⟨rfl, ?_⟩
    split at hrelease <;> rename_i hlast
    · obtain ⟨rfl, rfl⟩ := Prod.mk.inj (Except.ok.inj hrelease)
      exact Or.inl ⟨rfl, by omega, by rw [hlast, TextDocument.closed]⟩
    · obtain ⟨rfl, rfl⟩ := Prod.mk.inj (Except.ok.inj hrelease)
      exact Or.inr ⟨rfl, by omega, rfl⟩

/-- Closing a document takes it out of the workspace and tells the clients. -/
theorem shift_close (htidy : Tidy session) (hdocument : session.documents[id]? = some document)
    (hopen : document.isClosed = false) :
    Shift session (.closed document (session.openAt? document.uri != some id))
      ((session.setDocument id document.closed).afterClose id document.closed) := by
  have hown := htidy.own_of_getElem? hdocument
  have hown' : (session.setDocument id document.closed).workspace.map Workspace.number =
      some document.closed.workspace := hown
  rw [Session.afterClose_eq hown' (session.openAt? document.uri != some id)]
  exact .closed id document hdocument hopen

/-- Giving one hold back closes the document if it was the last one. -/
theorem shift_release (htidy : Tidy session) (hafter : session.release id = .ok after) :
    ∃ turn, Shift session turn after ∧ turn.isPlain = true ∧
      turn.isStray = session.releaseStrays id := by
  simp only [Session.release, Session.find] at hafter
  cases hdocument : session.documents[id]? with
  | none =>
    rw [hdocument] at hafter
    cases hafter
  | some document =>
    rw [hdocument] at hafter
    simp only [bind, Except.bind, pure, Except.pure] at hafter
    split at hafter
    · cases hafter
    · rename_i result hrelease
      obtain ⟨changed, isLast⟩ := result
      obtain ⟨hopen, ⟨rfl, hholds, rfl⟩ | ⟨rfl, hholds, rfl⟩⟩ := release_ok hrelease
      · obtain rfl := Except.ok.inj hafter
        refine ⟨_, shift_close htidy hdocument hopen, rfl, ?_⟩
        simp [Turn.isStray, Session.releaseStrays, hdocument, hholds]
      · obtain rfl := Except.ok.inj hafter
        refine ⟨.quiet, .held id document _ hdocument hopen (by omega), rfl, ?_⟩
        have hmany : (document.holds == 1) = false := beq_eq_false_iff_ne.mpr (by omega)
        simp [Turn.isStray, Session.releaseStrays, hdocument, hmany]

/-- A document that cannot be given back is not closed by it. -/
theorem releaseStrays_of_error {error : DocumentError}
    (hrefused : session.release id = .error error) : session.releaseStrays id = false := by
  cases hdocument : session.documents[id]? with
  | none => simp [Session.releaseStrays, hdocument]
  | some document =>
    have hholds : document.holds ≠ 1 := by
      intro hholds
      simp [Session.release, Session.find, hdocument, TextDocument.release,
        TextDocument.ensureOpen, TextDocument.isClosed, hholds, bind, Except.bind, pure,
        Except.pure] at hrefused
    simp [Session.releaseStrays, hdocument, hholds]

/-- Giving one hold back, if there is one. -/
theorem path_releaseIfOpen (htidy : Tidy session) (id : Nat) :
    ∃ turns, Path session turns (session.releaseIfOpen id) ∧
      (∀ turn ∈ turns, turn.isPlain = true) ∧
      turns.any Turn.isStray = session.releaseStrays id := by
  unfold Session.releaseIfOpen
  split
  · rename_i after hafter
    obtain ⟨turn, hshift, hplain, hstray⟩ := shift_release htidy hafter
    exact ⟨[turn], .single hshift, by simpa using hplain, by simpa using hstray⟩
  · rename_i error hrefused
    exact ⟨[], .nil session, by simp, (releaseStrays_of_error hrefused).symm⟩

/-- A queued edit lies within the text, and the queue has a place for it. -/
theorem shift_edit {change : TextDocument → Except DocumentError TextDocument} {text : String}
    (hafter : session.modifyDocument id change = .ok after)
    (hedit : ∀ document changed, change document = .ok changed →
      ∃ start stop, document.edit text start stop = .ok changed) :
    Shift session (.queued text) after := by
  obtain ⟨document, changed, hdocument, hchange, rfl⟩ := Session.modifyDocument_ok hafter
  obtain ⟨start, stop, hchange⟩ := hedit document changed hchange
  obtain ⟨hopen, hstart, hstop, hle, edits, hinsert, rfl⟩ :=
    TextDocument.edit_eq_ok_iff.mp hchange
  exact .queued id document ⟨start, stop, text⟩ edits hdocument hopen hstart hstop hle hinsert

/-- An edit that is given by positions is queued as one that is given by offsets. -/
theorem pushTextEdit_ok {changed : TextDocument} {edit : TextEdit}
    (hpush : document.pushTextEdit edit = .ok changed) :
    ∃ start stop, document.edit edit.newText start stop = .ok changed := by
  simp only [TextDocument.pushTextEdit, bind, Except.bind] at hpush
  cases hoffsets : document.offsetsOf edit.range with
  | error error =>
    rw [hoffsets] at hpush
    cases hpush
  | ok offsets =>
    rw [hoffsets] at hpush
    exact ⟨offsets.1, offsets.2, hpush⟩

/-- Discarding edits changes nothing else. -/
theorem shift_discard
    (hafter : (session.modifyDocument id fun document => .ok document.discardEdits) = .ok after) :
    Shift session .quiet after := by
  obtain ⟨document, changed, hdocument, hchange, rfl⟩ := Session.modifyDocument_ok hafter
  obtain rfl := Except.ok.inj hchange
  exact .discarded id document hdocument

/-- Committing tells the clients what has changed. -/
theorem shift_commit (htidy : Tidy session) (hafter : session.commit id = .ok after) :
    ∃ change, Shift session (.changed id change) after := by
  simp only [Session.commit, Session.find] at hafter
  cases hdocument : session.documents[id]? with
  | none =>
    rw [hdocument] at hafter
    cases hafter
  | some document =>
    rw [hdocument] at hafter
    simp only [bind, Except.bind, pure, Except.pure] at hafter
    split at hafter
    · cases hafter
    · rename_i result hcommit
      obtain ⟨committed, change⟩ := result
      obtain rfl := Except.ok.inj hafter
      obtain ⟨-, events, -, hcommitted, -⟩ := Shift.commit_eq hcommit
      have hown := htidy.own_of_getElem? hdocument
      have hown' : (session.setDocument id committed).workspace.map Workspace.number =
          some committed.workspace := by
        rw [hcommitted]
        exact hown
      refine ⟨change, ?_⟩
      rw [Session.listeners_eq hown']
      exact .changed id document committed change hdocument hcommit

/-- An open document stands at an address if the workspace has one there. -/
theorem isLive_eq (htidy : Tidy session) (uri : String) :
    session.isLive uri = (session.openAt? uri).isSome := by
  unfold Session.isLive
  cases hopenAt : session.openAt? uri with
  | none => rfl
  | some id =>
    obtain ⟨document, hdocument, hopen, -⟩ := htidy.live_of_openAt? hopenAt
    simp [hdocument, hopen]

/-- A document that is opened again comes to its address, unless it is not alone there. -/
theorem shift_reopen (htidy : Tidy session) (hafter : session.reopen id = .ok after) :
    ∃ turn, Shift session turn after ∧
      (turn.isCalm = true ∨ turn = .shadowed id ∧ ¬ session.IsLive id ∧ ¬ session.IsAlone id) := by
  simp only [Session.reopen, Session.find] at hafter
  cases hdocument : session.documents[id]? with
  | none =>
    rw [hdocument] at hafter
    cases hafter
  | some document =>
    have hown := htidy.own_of_getElem? hdocument
    rw [hdocument] at hafter
    simp only [bind, Except.bind, pure, Except.pure, TextDocument.reopen, isLive_eq htidy] at hafter
    cases hclosed : document.isClosed with
    | false =>
      simp only [hclosed, Bool.not_false, Bool.true_or, if_true] at hafter
      obtain rfl := Except.ok.inj hafter
      exact ⟨.quiet, .held id document _ hdocument hclosed (Nat.succ_pos _), Or.inl rfl⟩
    | true =>
      have hholds : document.holds + 1 = 1 := by rw [beq_iff_eq.mp hclosed]
      have hown' : (session.setDocument id { document with holds := 1 }).workspace.map
          Workspace.number = some { document with holds := 1 }.workspace := hown
      have hhere : session.workspace.isNone = false := by
        rw [← Option.not_isSome, htidy.here]
        rfl
      rw [hholds, Session.workspaceOf?_eq hown'] at hafter
      cases hopenAt : session.openAt? document.uri with
      | some other =>
        simp only [hopenAt, Option.isSome_some, Bool.or_true, if_true] at hafter
        obtain rfl := Except.ok.inj hafter
        refine ⟨.shadowed id, .shadowed id other document hdocument hclosed hopenAt,
          Or.inr ⟨rfl, ?_, ?_⟩⟩
        · rintro ⟨found, hfound, hopen⟩
          obtain rfl := Option.some.inj (hdocument.symm.trans hfound)
          rw [hclosed] at hopen
          cases hopen
        · intro halone
          obtain ⟨newer, hnewer, hopen, huri⟩ := htidy.live_of_openAt? hopenAt
          obtain rfl := halone document hdocument other newer hnewer hopen huri
          obtain rfl := Option.some.inj (hdocument.symm.trans hnewer)
          rw [hclosed] at hopen
          cases hopen
      | none =>
        have hset : (session.setDocument id { document with holds := 1 }).workspace.isNone =
            false := hhere
        simp only [hclosed, hopenAt, hset, Option.isSome_none, Bool.not_true, Bool.or_false,
          Bool.false_eq_true, if_false] at hafter
        obtain rfl := Except.ok.inj hafter
        refine ⟨.opened { document with holds := 1 }, ?_, Or.inl rfl⟩
        have hnumber (workspace : Workspace) :
            (workspace.putDocument document.uri id).number = workspace.number := rfl
        rw [Session.listeners_eq (Session.number_modifyWorkspace hown' hnumber)]
        exact .reopened id document hdocument hclosed hopenAt

/-- A document that is read comes to its address, where there was none. -/
theorem shift_openFresh {workspace : Workspace} {path uri : String} {language : Option String}
    (htidy : Tidy session) (hworkspace : session.workspace = some workspace)
    (hnone : session.openAt? uri = none)
    (hafter : session.openFresh workspace path uri language = .ok (id, after)) :
    ∃ document, Shift session (.opened document) after ∧ after.openAt? uri = some id := by
  unfold Session.openFresh at hafter
  split at hafter
  · cases hafter
  · cases hafter
  · rename_i text hread
    obtain ⟨rfl, rfl⟩ := Prod.mk.inj (Except.ok.inj hafter)
    let document := TextDocument.opened workspace.number path uri
      ((language <|> languageOfPath? path).getD Workspace.fallbackLanguage) text workspace.encoding
    let added := { session with documents := session.documents ++ [document] }.modifyWorkspace
      (·.putDocument uri session.documents.length)
    have hclients : (added.workspace.map Workspace.clients).getD [] = workspace.clients := by
      simp only [added, Session.modifyWorkspace, hworkspace]
      rfl
    have hsay : added.announce workspace.clients document = added.say (.opened document) := by
      rw [Session.say, hclients]
      rfl
    refine ⟨document, ?_, ?_⟩
    · exact hsay ▸ .fresh workspace path uri _ text document hworkspace rfl hread hnone
    · have hopenAt : (added.say (.opened document)).openAt? uri =
          some session.documents.length := by
        rw [Session.openAt?_say]
        exact ((htidy.add rfl hworkspace).openAt?_put uri uri).trans (if_pos rfl)
      exact hsay ▸ hopenAt

/-- A document that is opened is held or read, and stands at its address afterwards. -/
theorem shift_openDocument {target : String} {language : Option String} (htidy : Tidy session)
    (hafter : session.openDocument target language = .ok (id, after)) :
    ∃ turn uri, Shift session turn after ∧ turn.isCalm = true ∧ after.openAt? uri = some id := by
  unfold Session.openDocument at hafter
  cases hworkspace : session.workspace with
  | none =>
    rw [hworkspace] at hafter
    cases hafter
  | some workspace =>
    rw [hworkspace] at hafter
    dsimp only at hafter
    have hopenAt (uri : String) : session.openAt? uri = workspace.openDocuments.lookup uri := by
      rw [Session.openAt?, hworkspace, Option.bind_some]
    rw [← hopenAt] at hafter
    split at hafter
    · rename_i hnone
      obtain ⟨document, hshift, hfound⟩ := shift_openFresh htidy hworkspace hnone hafter
      exact ⟨_, _, hshift, rfl, hfound⟩
    · rename_i found hfound
      split at hafter
      · rename_i held hheld
        obtain ⟨rfl, rfl⟩ := Prod.mk.inj (Except.ok.inj hafter)
        have hshift := shift_acquire hheld
        exact ⟨.quiet, _, hshift, rfl, (hshift.openAt?_quiet _).trans hfound⟩
      · rename_i error hrefused
        obtain ⟨document, hdocument, hopen, -⟩ := htidy.live_of_openAt? hfound
        obtain ⟨held, hheld⟩ := acquire_of_live hdocument hopen
        rw [hheld] at hrefused
        cases hrefused

end Documents

end LanguageClient
