import LanguageClient.Proofs.Workspace.Listing

/-!
# What operations do to documents

Every operation on a workspace but attaching a client is made of shifts, and what it is accounts for
the kinds of shifts: only committing changes texts, only giving back holds one by one closes a
document that the workspace does not have, and only opening a document again that is not alone opens
it beside another one.
-/

namespace LanguageClient

section Closing

variable {session : Session}

/-- The session with nothing at the addresses of its workspace. -/
def Session.clear (session : Session) : Session :=
  session.modifyWorkspace fun workspace => { workspace with openDocuments := [] }

theorem Session.clear_of_shelf_nil (hshelf : session.shelf = []) : session.clear = session := by
  cases session with
  | mk files clients documents workspace nextWorkspace =>
    cases workspace with
    | none => rfl
    | some workspace =>
      cases workspace
      obtain rfl := hshelf
      rfl

theorem Session.tell_clear (session : Session) (ids : List Nat)
    (said : Client → Except ClientError (Bool × Client)) :
    session.clear.tell ids said = (session.tell ids said).clear := by
  unfold tell
  induction ids generalizing session with
  | nil => rfl
  | cons id rest ih =>
    rw [List.foldl_cons, List.foldl_cons, ← ih]
    rfl

theorem Session.shelf_clear (session : Session) : session.clear.shelf = [] := by
  unfold shelf clear modifyWorkspace
  cases session.workspace <;> rfl

theorem Session.say_clear (session : Session) (turn : Turn) :
    session.clear.say turn = (session.say turn).clear := by
  have hclients : (session.clear.workspace.map Workspace.clients).getD [] =
      (session.workspace.map Workspace.clients).getD [] := by
    rw [Session.clear, Session.modifyWorkspace, Option.map_map]
    rfl
  rw [Session.say, hclients]
  exact tell_clear session _ _

/-- A workspace without documents is tidy. -/
theorem Tidy.clear (htidy : Tidy session) : Tidy session.clear where
  here := by
    simp only [Session.clear, Session.modifyWorkspace, Option.isSome_map]
    exact htidy.here
  own document hdocument :=
    Session.number_modifyWorkspace (htidy.own document hdocument) fun _ => rfl
  nodup := by
    rw [Session.shelf_clear]
    exact List.nodup_nil
  live uri id hmem := by
    rw [Session.shelf_clear] at hmem
    cases hmem

/-- Giving back all holds closes an open document. -/
theorem releaseAll_eq (htidy : Tidy session) {id : Nat} {document : TextDocument}
    (hdocument : session.documents[id]? = some document) (hopen : document.isClosed = false) :
    session.releaseAll id = ((session.setDocument id document.closed).modifyWorkspace
      (·.dropDocument document.uri id)).say (.closed document false) := by
  have hown := htidy.own_of_getElem? hdocument
  have hown' : (session.setDocument id document.closed).workspace.map Workspace.number =
      some document.closed.workspace := hown
  have hclose : session.releaseAll id =
      (session.setDocument id document.closed).afterClose id document.closed := by
    simp only [Session.releaseAll, hdocument, TextDocument.releaseAll, hopen, Bool.false_eq_true,
      if_false]
    rfl
  exact hclose.trans (Session.afterClose_eq hown' false)

/-- Closing a document does the same, whether the workspace still has documents at its addresses or
not. -/
theorem releaseAll_clear (htidy : Tidy session) {id : Nat} {document : TextDocument}
    (hdocument : session.documents[id]? = some document) (hopen : document.isClosed = false) :
    session.clear.releaseAll id = (session.releaseAll id).clear := by
  have hdrop : (session.clear.setDocument id document.closed).modifyWorkspace
      (·.dropDocument document.uri id) = ((session.setDocument id document.closed).modifyWorkspace
        (·.dropDocument document.uri id)).clear := by
    unfold Session.clear Session.setDocument Session.modifyWorkspace
    cases session.workspace <;> rfl
  rw [releaseAll_eq htidy.clear hdocument hopen, hdrop, Session.say_clear,
    releaseAll_eq htidy hdocument hopen]

/-- Closing the documents one by one leaves nothing behind, whether the workspace still has them at
their addresses meanwhile or not. -/
theorem path_releaseAll (htidy : Tidy session) {entries : List (String × Nat)}
    (hshelf : session.shelf = entries) :
    ∃ turns, Path session turns
        (entries.foldl (fun session entry => session.releaseAll entry.2) session.clear) ∧
      (∀ turn ∈ turns, turn.isPlain = true) ∧ turns.any Turn.isStray = false := by
  induction entries generalizing session with
  | nil =>
    rw [Session.clear_of_shelf_nil hshelf]
    exact ⟨[], .nil session, by simp, rfl⟩
  | cons entry rest ih =>
    obtain ⟨uri, id⟩ := entry
    have hmem : (uri, id) ∈ session.shelf := hshelf ▸ List.mem_cons_self
    obtain ⟨document, hdocument, hopen, rfl⟩ := htidy.live uri id hmem
    have hown : (session.openAt? document.uri != some id) = false := by
      simp [htidy.openAt?_of_mem hmem]
    have hshift := Shift.closed id document hdocument hopen
    rw [hown, ← releaseAll_eq htidy hdocument hopen] at hshift
    have hrest : (session.releaseAll id).shelf = rest := by
      rw [releaseAll_eq htidy hdocument hopen, Session.shelf_say, Session.shelf_dropDocument]
      change session.shelf.filter _ = rest
      have hnodup := htidy.nodup
      rw [hshelf, List.map_cons, List.nodup_cons] at hnodup
      rw [hshelf, List.filter_cons, if_neg (by simp)]
      refine List.filter_eq_self.mpr fun entry hentry => ?_
      have hother : entry.1 ≠ document.uri := by
        intro huri
        exact hnodup.1 (List.mem_map.mpr ⟨entry, hentry, huri⟩)
      simp [hother]
    rw [List.foldl_cons, releaseAll_clear htidy hdocument hopen]
    obtain ⟨turns, hpath, hplain, hstray⟩ := ih (hshift.tidy htidy) hrest
    refine ⟨.closed document false :: turns, .cons hshift hpath, ?_, ?_⟩
    · intro turn hturn
      rcases List.mem_cons.mp hturn with rfl | hlater
      · rfl
      · exact hplain turn hlater
    · rw [List.any_cons, hstray]
      rfl

/-- Closing the workspace closes the documents at its addresses. -/
theorem path_closeWorkspace (htidy : Tidy session) :
    ∃ turns, Path session turns session.closeWorkspace ∧
      (∀ turn ∈ turns, turn.isPlain = true) ∧ turns.any Turn.isStray = false := by
  unfold Session.closeWorkspace
  split
  · exact ⟨[], .nil session, by simp, rfl⟩
  · rename_i workspace hworkspace
    have hshelf : session.shelf = workspace.openDocuments := by
      rw [Session.shelf, hworkspace]
      rfl
    exact path_releaseAll htidy hshelf

end Closing

namespace Desk

/-- The kinds of shifts that an operation can be made of. -/
structure Account (desk : Desk) (operation : Operation) (turns : List Turn) : Prop where
  stray : turns.any Turn.isStray = desk.strays operation
  alone : desk.ReopensAlone operation → ∀ id, Turn.shadowed id ∉ turns
  filed : ∀ files, Turn.filed files ∈ turns → operation = .changeFiles files
  queued : ∀ text, Turn.queued text ∈ turns → operation.text? = some text
  changed : ∀ id, turns.countP (Turn.changes id) ≤ (desk.commits id operation).toNat

variable {desk : Desk} {operation : Operation} {turns : List Turn}

/-- Documents may be held, opened and closed by any operation, as long as no stray one is closed
that is not said to be. -/
theorem Account.plain (hplain : ∀ turn ∈ turns, turn.isPlain = true)
    (hstray : turns.any Turn.isStray = desk.strays operation) : Account desk operation turns where
  stray := hstray
  alone _ id := shadowed_notMem hplain id
  filed _ hmem := by cases hplain _ hmem
  queued _ hmem := by cases hplain _ hmem
  changed id := by
    have hnone : turns.countP (Turn.changes id) = 0 :=
      List.countP_eq_zero.mpr fun turn hturn => by
        rw [Turn.changes_of_isPlain (hplain turn hturn)]
        exact Bool.false_ne_true
    rw [hnone]
    exact Nat.zero_le _

/-- A document that is held or opened is all that an operation may be. -/
theorem Account.calm {turn : Turn} (hcalm : turn.isCalm = true)
    (hstrays : desk.strays operation = false) : Account desk operation [turn] :=
  .plain (by simpa using Turn.isPlain_of_isCalm hcalm)
    (by simpa [hstrays] using Turn.isStray_of_isCalm hcalm)

/-- Documents that are opened again are all that an operation may be, and if they are alone they are
held or come to their addresses. -/
theorem Account.reopening (hturns : ∀ turn ∈ turns, turn.isCalm = true ∨ ∃ id, turn = .shadowed id)
    (hstrays : desk.strays operation = false)
    (halone : desk.ReopensAlone operation → ∀ turn ∈ turns, turn.isCalm = true) :
    Account desk operation turns where
  stray := by
    rw [hstrays]
    refine List.any_eq_false.mpr fun turn hturn => ?_
    rcases hturns turn hturn with hcalm | ⟨id, rfl⟩
    · rw [Turn.isStray_of_isCalm hcalm]
      exact Bool.false_ne_true
    · exact Bool.false_ne_true
  alone h id := shadowed_notMem (fun turn hturn => Turn.isPlain_of_isCalm (halone h turn hturn)) id
  filed files hmem := by
    rcases hturns _ hmem with hcalm | ⟨id, hturn⟩
    · cases hcalm
    · cases hturn
  queued text hmem := by
    rcases hturns _ hmem with hcalm | ⟨id, hturn⟩
    · cases hcalm
    · cases hturn
  changed id := by
    have hnone : turns.countP (Turn.changes id) = 0 :=
      List.countP_eq_zero.mpr fun turn hturn => by
        rcases hturns turn hturn with hcalm | ⟨n, rfl⟩
        · rw [Turn.changes_of_isPlain (Turn.isPlain_of_isCalm hcalm)]
          exact Bool.false_ne_true
        · exact Bool.false_ne_true
    rw [hnone]
    exact Nat.zero_le _

/-- An operation that is refused leads nowhere. -/
theorem path_take {ε : Type} {result : Except ε Session}
    (hok : ∀ after, result = .ok after →
      ∃ turns, Path desk.session turns after ∧ Account desk operation turns)
    (herror : ∀ error, result = .error error → desk.strays operation = false) :
    ∃ turns, Path desk.session turns (desk.take result).session ∧
      Account desk operation turns := by
  cases result with
  | ok after => exact hok after rfl
  | error error =>
    exact ⟨[], .nil desk.session, .plain (by simp) (herror error rfl).symm⟩

/-- Queueing an edit is a single shift, which is accounted for by the text of the edit. -/
theorem path_queue {id : Nat} {text : String}
    {change : TextDocument → Except DocumentError TextDocument}
    (htext : operation.text? = some text) (hstrays : desk.strays operation = false)
    (hedit : ∀ document changed, change document = .ok changed →
      ∃ start stop, document.edit text start stop = .ok changed) :
    ∃ turns, Path desk.session turns (desk.take (desk.session.modifyDocument id change)).session ∧
      Account desk operation turns := by
  refine path_take (fun after hafter => ?_) fun _ _ => hstrays
  refine ⟨[.queued text], .single (shift_edit hafter hedit), ?_⟩
  constructor
  · exact hstrays.symm
  · simp
  · simp
  · rintro other hother
    obtain rfl := Turn.queued.inj (List.mem_singleton.mp hother)
    exact htext
  · simp [Turn.changes]

/-- Every operation but attaching a client is made of shifts. -/
theorem path_perform (htidy : Tidy desk.session) (operation : Operation)
    (hattach : operation.isAttach = false) :
    ∃ turns, Path desk.session turns (desk.perform operation).session ∧
      Account desk operation turns := by
  cases operation with
  | openDocument target language =>
    refine path_take (fun after hafter => ?_) fun _ _ => rfl
    cases hopen : desk.session.openDocument target language with
    | error error =>
      rw [hopen] at hafter
      cases hafter
    | ok result =>
      rw [hopen] at hafter
      obtain rfl := Except.ok.inj hafter
      obtain ⟨turn, uri, hshift, hcalm, -⟩ := shift_openDocument htidy hopen
      exact ⟨[turn], .single hshift, .calm hcalm rfl⟩
  | acquire id =>
    refine path_take (fun after hafter => ?_) fun _ _ => rfl
    exact ⟨[.quiet], .single (shift_acquire hafter), .calm rfl rfl⟩
  | release id =>
    refine path_take (fun after hafter => ?_) fun _ hrefused => releaseStrays_of_error hrefused
    obtain ⟨turn, hshift, hplain, hstray⟩ := shift_release htidy hafter
    exact ⟨[turn], .single hshift, .plain (by simpa using hplain) (by simpa [strays] using hstray)⟩
  | reopen id =>
    refine path_take (fun after hafter => ?_) fun _ _ => rfl
    obtain ⟨turn, hshift, hcalm | ⟨rfl, -, halone⟩⟩ := shift_reopen htidy hafter
    · exact ⟨[turn], .single hshift, .calm hcalm rfl⟩
    · refine ⟨[.shadowed id], .single hshift, .reopening ?_ rfl fun h => absurd h halone⟩
      simp
  | edit id text start stop =>
    exact path_queue rfl rfl fun document changed hedit => ⟨start, stop, hedit⟩
  | insert id text offset =>
    exact path_queue rfl rfl fun document changed hedit => ⟨offset, offset, hedit⟩
  | delete id start stop =>
    exact path_queue rfl rfl fun document changed hedit => ⟨start, stop, hedit⟩
  | pushTextEdit id edit => exact path_queue rfl rfl fun document changed => pushTextEdit_ok
  | discardEdits id =>
    refine path_take (fun after hafter => ?_) fun _ _ => rfl
    exact ⟨[.quiet], .single (shift_discard hafter), .calm rfl rfl⟩
  | commit id =>
    refine path_take (fun after hafter => ?_) fun _ _ => rfl
    obtain ⟨change, hshift⟩ := shift_commit htidy hafter
    refine ⟨[.changed id change], .single hshift, rfl, ?_, ?_, ?_, fun n => ?_⟩
    · simp
    · simp
    · simp
    · simp only [List.countP_singleton, Turn.changes, commits, hafter, Except.isOk,
        Except.toBool]
      by_cases hid : id = n <;> simp [hid]
  | buildList documents ranges =>
    simp only [perform]
    split
    · rename_i list session hbuilt
      obtain ⟨turns, hpath, hturns, hcalm⟩ := path_buildList htidy hbuilt
      exact ⟨turns, hpath, .reopening hturns rfl fun halone => hcalm (Or.inl halone)⟩
    · exact ⟨[], .nil desk.session, .plain (by simp) rfl⟩
  | listLocations locations =>
    obtain ⟨turns, hpath, hplain, hstray⟩ := path_listOfLocations htidy locations
    refine ⟨turns, ?_, .plain hplain hstray⟩
    simp only [perform]
    split <;> rename_i hresult <;> rwa [hresult] at hpath
  | closeList n =>
    simp only [perform]
    split
    · rename_i list hlist
      obtain ⟨turns, hpath, hplain, hstray⟩ :=
        path_releases htidy (list.entries.map LocationEntry.document)
      rw [List.foldl_map] at hpath
      refine ⟨turns, hpath, .plain hplain ?_⟩
      rw [hstray, strays, hlist]
      rfl
    · rename_i hlist
      refine ⟨[], .nil desk.session, .plain (by simp) ?_⟩
      rw [strays, hlist]
      rfl
  | closeWorkspace =>
    obtain ⟨turns, hpath, hplain, hstray⟩ := path_closeWorkspace htidy
    exact ⟨turns, hpath, .plain hplain hstray⟩
  | changeFiles files =>
    refine ⟨[.filed files], .single (.filed files), rfl, ?_, ?_, ?_, ?_⟩
    · simp
    · simp
    · simp
    · simp [Turn.changes]
  | attach client => cases hattach

/-- Every operation attaches a client or is made of shifts. -/
theorem perform_cases (htidy : Tidy desk.session) (operation : Operation) :
    (∃ client, operation = .attach client) ∨
      ∃ turns, Path desk.session turns (desk.perform operation).session ∧
        Account desk operation turns := by
  cases hattach : operation.isAttach with
  | false => exact Or.inr (path_perform htidy operation hattach)
  | true =>
    cases operation with
    | attach client => exact Or.inl ⟨client, rfl⟩
    | _ => cases hattach

end Desk

end LanguageClient
