import LanguageClient.Proofs.Workspace.Holds
import LanguageClient.Proofs.Workspace.Keeping

/-!
# What closing a workspace leaves behind

Closing a workspace closes the documents that it has at its addresses and leaves every other one as
it is. Nothing stays open exactly if the workspace had all open documents at their addresses, which
fails for a document that was opened again while another one was open at its address.
-/

namespace LanguageClient

namespace TextDocument

/-- No hold and no edit is left. -/
def IsAtRest (document : TextDocument) : Prop :=
  document.holds = 0 ∧ document.hasPendingEdits = false

variable {document : TextDocument}

/-- A closed document that is in order is at rest. -/
theorem InOrder.isAtRest (horder : document.InOrder) (hclosed : document.isClosed = true) :
    document.IsAtRest := by
  refine ⟨beq_iff_eq.mp hclosed, ?_⟩
  rw [hasPendingEdits, horder.closed hclosed]
  rfl

theorem not_isAtRest_of_open (hopen : document.isClosed = false) : ¬document.IsAtRest :=
  fun hrest => beq_eq_false_iff_ne.mp hopen hrest.1

theorem fst_releaseAll_of_closed (hclosed : document.isClosed = true) :
    document.releaseAll.1 = document := by
  rw [releaseAll, if_pos hclosed]

theorem fst_releaseAll_of_open (hopen : document.isClosed = false) :
    document.releaseAll.1 = document.closed := by
  rw [releaseAll, hopen]
  rfl

/-- Giving back all holds twice is giving them back once. -/
theorem fst_releaseAll_twice (document : TextDocument) :
    document.releaseAll.1.releaseAll.1 = document.releaseAll.1 := by
  cases hopen : document.isClosed with
  | true => rw [fst_releaseAll_of_closed hopen, fst_releaseAll_of_closed hopen]
  | false =>
    rw [fst_releaseAll_of_open hopen]
    exact fst_releaseAll_of_closed rfl

end TextDocument

namespace Session

section Closing

variable {session : Session} {id : Nat}

/-- Giving back all holds of one document leaves the others as they are. -/
theorem documents_releaseAll (session : Session) (id : Nat) :
    (session.releaseAll id).documents =
      session.documents.modify id fun document => document.releaseAll.1 := by
  rw [List.modify_eq_set_getElem?]
  unfold releaseAll
  split
  · rename_i hnone
    rw [hnone]
    rfl
  · rename_i document hdocument
    rw [hdocument]
    change _ = session.documents.set id document.releaseAll.1
    cases hopen : document.isClosed with
    | true =>
      obtain ⟨hlt, hget⟩ := List.getElem?_eq_some_iff.mp hdocument
      have hsame := TextDocument.fst_releaseAll_of_closed hopen
      rw [hsame, ← hget, List.set_getElem_self, hget]
      simp only [TextDocument.releaseAll, hopen, if_true, Bool.false_eq_true, if_false]
    | false =>
      rw [TextDocument.fst_releaseAll_of_open hopen]
      simp only [TextDocument.releaseAll, hopen, Bool.false_eq_true, if_false, if_true]
      exact documents_afterClose _ _ _

/-- Giving back all holds of some documents leaves the others as they are. -/
theorem getElem?_releaseEach (session : Session) (entries : List (String × Nat)) (id : Nat) :
    (entries.foldl (fun session entry => session.releaseAll entry.2) session).documents[id]? =
      (session.documents[id]?).map fun document =>
        if id ∈ entries.map Prod.snd then document.releaseAll.1 else document := by
  induction entries generalizing session with
  | nil => simp
  | cons entry rest ih =>
    rw [List.foldl_cons, ih, documents_releaseAll, List.getElem?_modify]
    cases session.documents[id]? with
    | none => rfl
    | some document =>
      simp only [Option.map_eq_map, Option.map_some, List.map_cons]
      by_cases hentry : entry.2 = id
      · rw [if_pos hentry, if_pos (List.mem_cons.mpr (Or.inl hentry.symm)),
          TextDocument.fst_releaseAll_twice, ite_self]
      · simp only [hentry, if_false, List.mem_cons, Ne.symm hentry, false_or]

/-- A workspace without documents has none after one more was closed. -/
theorem shelf_releaseAll (hempty : session.shelf = []) (id : Nat) :
    (session.releaseAll id).shelf = [] := by
  unfold releaseAll
  split
  · exact hempty
  · rename_i document hdocument
    dsimp only
    split
    · unfold afterClose
      split
      · exact hempty
      · unfold announceClosed shelf
        rw [(tell_keeps _ _ _).2.1]
        change ((session.setDocument id document.releaseAll.1).modifyWorkspace
          (·.dropDocument document.releaseAll.1.uri id)).shelf = []
        rw [shelf_dropDocument]
        change session.shelf.filter _ = []
        rw [hempty]
        rfl
    · exact hempty

/-- A workspace that was closed has no documents. -/
theorem shelf_closeWorkspace (session : Session) : session.closeWorkspace.shelf = [] := by
  have heach (session : Session) (entries : List (String × Nat)) (hempty : session.shelf = []) :
      (entries.foldl (fun session entry => session.releaseAll entry.2) session).shelf = [] := by
    induction entries generalizing session with
    | nil => exact hempty
    | cons entry rest ih => exact ih _ (shelf_releaseAll hempty entry.2)
  unfold closeWorkspace
  split
  · rename_i hnone
    rw [shelf, hnone]
    rfl
  · exact heach _ _ (shelf_clear session)

/-- Closing a workspace closes the documents that it has at their addresses, and no others. -/
theorem getElem?_closeWorkspace (htidy : Tidy session) (id : Nat) :
    session.closeWorkspace.documents[id]? = (session.documents[id]?).map fun document =>
      if session.openAt? document.uri = some id then document.closed else document := by
  obtain ⟨workspace, hworkspace⟩ := Option.isSome_iff_exists.mp htidy.here
  have hshelf : session.shelf = workspace.openDocuments := by
    rw [shelf, hworkspace]
    rfl
  rw [closeWorkspace, hworkspace]
  dsimp only
  rw [getElem?_releaseEach, ← hshelf]
  change (session.documents[id]?).map _ = _
  cases hdocument : session.documents[id]? with
  | none => rfl
  | some document =>
    simp only [Option.map_some]
    by_cases hmem : id ∈ session.shelf.map Prod.snd
    · obtain ⟨⟨uri, n⟩, hentry, rfl⟩ := List.mem_map.mp hmem
      obtain ⟨found, hfound, hopen, rfl⟩ := htidy.live uri n hentry
      obtain rfl := Option.some.inj (hdocument.symm.trans hfound)
      rw [if_pos hmem, if_pos (htidy.openAt?_of_mem hentry),
        TextDocument.fst_releaseAll_of_open hopen]
    · have hother : session.openAt? document.uri ≠ some id := by
        intro hplace
        rw [openAt?_eq_lookup] at hplace
        obtain ⟨before, after, hsplit, -⟩ := List.lookup_eq_some_iff.mp hplace
        exact hmem (List.mem_map.mpr ⟨(document.uri, id), by rw [hsplit]; simp, rfl⟩)
      rw [if_neg hmem, if_neg hother]

end Closing

/-- What has become of a workspace that was closed: exactly those documents stay open that it did
not have at their addresses, and they stay as they are. -/
structure Empties (session after : Session) : Prop where
  openDocuments_eq : after.workspace.map Workspace.openDocuments = some []
  isLive_iff : ∀ id, after.IsLive id ↔ session.IsLive id ∧ ¬session.Housed id
  stays : ∀ id, after.IsLive id → after.documents[id]? = session.documents[id]?
  rests : ∀ document ∈ after.documents, document.isClosed = true → document.IsAtRest
  allRest_iff : (∀ document ∈ after.documents, document.IsAtRest) ↔ ∀ id, session.Housed id

section Emptying

variable {session : Session} {id : Nat} {document : TextDocument}

/-- An open document that the workspace does not have at its address stays as it is. -/
theorem stays_of_not_housed (htidy : Tidy session)
    (hdocument : session.documents[id]? = some document) (hnot : ¬session.Housed id) :
    session.closeWorkspace.documents[id]? = some document := by
  have hother : session.openAt? document.uri ≠ some id := by
    refine fun hplace => hnot fun found hfound _ => ?_
    obtain rfl := Option.some.inj (hdocument.symm.trans hfound)
    exact hplace
  rw [getElem?_closeWorkspace htidy, hdocument, Option.map_some, if_neg hother]

/-- A document that is still open after the workspace was closed was not at its address. -/
theorem not_housed_of_stays (htidy : Tidy session)
    (hstays : session.closeWorkspace.documents[id]? = some document)
    (hopen : document.isClosed = false) :
    session.documents[id]? = some document ∧ ¬session.Housed id := by
  rw [getElem?_closeWorkspace htidy] at hstays
  obtain ⟨found, hfound, heq⟩ := Option.map_eq_some_iff.mp hstays
  split at heq
  · subst heq
    cases hopen
  · rename_i hother
    subst heq
    exact ⟨hfound, fun hhoused => hother (hhoused found hfound hopen)⟩

theorem isLive_closeWorkspace_iff (htidy : Tidy session) (id : Nat) :
    session.closeWorkspace.IsLive id ↔ session.IsLive id ∧ ¬session.Housed id := by
  constructor
  · rintro ⟨document, hstays, hopen⟩
    obtain ⟨hdocument, hnot⟩ := not_housed_of_stays htidy hstays hopen
    exact ⟨⟨document, hdocument, hopen⟩, hnot⟩
  · rintro ⟨⟨document, hdocument, hopen⟩, hnot⟩
    exact ⟨document, stays_of_not_housed htidy hdocument hnot, hopen⟩

/-- Closing a tidy workspace empties it. -/
theorem empties_closeWorkspace (htidy : Tidy session) (horder : session.InOrder) :
    session.Empties session.closeWorkspace := by
  obtain ⟨turns, hpath, -⟩ := path_closeWorkspace htidy
  have horder' := horder.path hpath
  refine ⟨?_, isLive_closeWorkspace_iff htidy, ?_,
    fun document hmem hclosed => (horder' document hmem).isAtRest hclosed, ?_, ?_⟩
  · obtain ⟨workspace, hworkspace⟩ := Option.isSome_iff_exists.mp (hpath.tidy htidy).here
    have hshelf := shelf_closeWorkspace session
    rw [shelf, hworkspace] at hshelf
    rw [hworkspace, Option.map_some, ← hshelf]
    rfl
  · rintro id ⟨document, hstays, hopen⟩
    rw [hstays, (not_housed_of_stays htidy hstays hopen).1]
  · intro hall id
    by_contra hnot
    have hlive : session.IsLive id := by
      by_contra hclosed
      exact hnot fun document hdocument hopen => absurd ⟨document, hdocument, hopen⟩ hclosed
    obtain ⟨document, hstays, hopen⟩ := (isLive_closeWorkspace_iff htidy id).mpr ⟨hlive, hnot⟩
    exact TextDocument.not_isAtRest_of_open hopen (hall document (List.mem_of_getElem? hstays))
  · intro hhoused document hmem
    refine (horder' document hmem).isAtRest ?_
    by_contra hopen
    obtain ⟨id, hstays⟩ := List.getElem?_of_mem hmem
    have hnot := (not_housed_of_stays htidy hstays (Bool.eq_false_iff.mpr hopen)).2
    exact hnot (hhoused id)

end Emptying

end Session

namespace Desk

variable {desk : Desk}

/-- An operation that opens documents again only where they are alone keeps all open documents at
their addresses. -/
theorem housed_perform (htidy : Tidy desk.session) (hhoused : ∀ id, desk.session.Housed id)
    {operation : Operation} (halone : desk.ReopensAlone operation) (id : Nat) :
    (desk.perform operation).session.Housed id := by
  obtain ⟨client, rfl⟩ | ⟨turns, hpath, haccount⟩ := perform_cases htidy operation
  · intro document hdocument hopen
    rw [perform, (attach_keeps htidy.here client).1] at hdocument
    rw [perform, openAt?_attach htidy.here]
    exact hhoused id document hdocument hopen
  · exact hpath.housed htidy (hhoused id) (haccount.alone halone id)

theorem housed_run (htidy : Tidy desk.session) (hhoused : ∀ id, desk.session.Housed id)
    {operations : List Operation} (halone : desk.AllReopenAlone operations) (id : Nat) :
    (desk.performAll operations).session.Housed id := by
  induction operations generalizing desk with
  | nil => exact hhoused id
  | cons operation rest ih =>
    exact ih (tidy_run htidy [operation]) (housed_perform htidy hhoused halone.1) halone.2

/-- For every run after which the workspace is closed: it has no documents any more, and everything
is at rest exactly if it had all open documents at their addresses. This is so if documents were
opened again only where they were alone. -/
theorem empties_run (files : FileTree) (clients : List Client) (root : String)
    (encoding : PositionEncoding) (operations : List Operation) :
    let desk := (begin files clients root encoding).performAll operations
    desk.session.Empties (desk.perform .closeWorkspace).session ∧
    ((begin files clients root encoding).AllReopenAlone operations →
      ∀ document ∈ (desk.perform .closeWorkspace).session.documents, document.IsAtRest) := by
  intro desk
  have htidy := tidy_begin files clients root encoding
  have horder := inOrder_begin files clients root encoding
  have hempties : desk.session.Empties (desk.perform .closeWorkspace).session :=
    Session.empties_closeWorkspace (tidy_run htidy operations) (inOrder_run htidy horder operations)
  refine ⟨hempties, fun halone => hempties.allRest_iff.mpr ?_⟩
  exact housed_run htidy (fun id document hdocument => by cases hdocument) halone

/-- A run in which a document is opened again beside a newer copy, and is then edited. -/
def editsBeside : List Operation :=
  [.openDocument "a" none, .release 0, .openDocument "a" none, .reopen 0, .insert 0 "y" 0]

/-- When the workspace is closed after that run, the older copy stays open with its edit. -/
theorem not_isAtRest_of_editsBeside :
    ¬∀ document ∈ (((begin Sample.files [] "/w" .utf16).performAll editsBeside).perform
      .closeWorkspace).session.documents, document.IsAtRest := by
  intro hall
  have hleft : (((begin Sample.files [] "/w" .utf16).performAll editsBeside).perform
      .closeWorkspace).session.documents.map (fun document =>
        (document.holds, document.hasPendingEdits)) = [(1, true), (0, false)] := by decide +kernel
  have hmem : (1, true) ∈ (((begin Sample.files [] "/w" .utf16).performAll editsBeside).perform
      .closeWorkspace).session.documents.map fun document =>
        (document.holds, document.hasPendingEdits) := by
    rw [hleft]
    exact List.mem_cons_self
  obtain ⟨document, hdocument, heq⟩ := List.mem_map.mp hmem
  obtain ⟨-, hedits⟩ := hall document hdocument
  rw [(Prod.mk.inj heq).2] at hedits
  cases hedits

end Desk

end LanguageClient
