import LanguageClient.Proofs.Workspace.Ledger

/-!
# Documents that are held open

As long as the workspace is not closed, the holds of a document are those that callers and lists
have taken and not given back. After it was closed, they are so only if nobody gives back an older
hold when there is none to spare: a list that is older than the closing still gives back all of its
holds, and so may close a document that a newer list holds.
-/

namespace LanguageClient

namespace Ledger

variable {ledger : Ledger} {action : Action} {id n : Nat} {list : LocationList}

section Runs

variable {actions : List Action}

theorem desk_next (ledger : Ledger) (action : Action) :
    (ledger.next action).desk = ledger.desk.perform action.operation := by
  obtain ⟨caller, operation⟩ := action
  cases operation <;> rfl

theorem mark_next (hopen : action.operation.isCloseWorkspace = false) :
    (ledger.next action).mark = ledger.mark := by
  obtain ⟨caller, operation⟩ := action
  cases operation with
  | closeWorkspace => cases hopen
  | _ => rfl

theorem length_lists_le (desk : Desk) (operation : Operation) :
    desk.lists.length ≤ (desk.perform operation).lists.length := by
  obtain hlists | ⟨n, -, hlists⟩ := desk.lists_perform operation
  · rw [hlists, List.length_append]
    omega
  · rw [hlists, List.length_set]

/-- All lists of before the last closing are still there, if only closed. -/
theorem mark_le_next (hmark : ledger.mark ≤ ledger.desk.lists.length) (action : Action) :
    (ledger.next action).mark ≤ (ledger.next action).desk.lists.length := by
  cases hclose : action.operation.isCloseWorkspace with
  | false =>
    rw [mark_next hclose, desk_next]
    exact hmark.trans (length_lists_le _ _)
  | true =>
    obtain ⟨caller, operation⟩ := action
    cases operation with
    | closeWorkspace => exact Nat.le_refl _
    | _ => cases hclose

/-- Only giving back older holds can take from a document what is owed. -/
theorem IsHonoured.next_iff (hhonoured : ledger.IsHonoured id)
    (hmark : ledger.mark ≤ ledger.desk.lists.length) (action : Action) :
    (ledger.next action).IsHonoured id ↔ ledger.robs id action = false := by
  unfold IsHonoured at hhonoured
  have hnothing (hnone : ledger.givenBack action = []) : ledger.robs id action = false := by
    rw [robs, hnone]
    rfl
  cases settled_next hmark action with
  | taken ids htakes howed hnone =>
    refine iff_of_true ?_ (hnothing hnone)
    rw [IsHonoured, htakes id, howed.count_eq, List.count_append]
    omega
  | returned ids hgives howed hnone =>
    refine iff_of_true ?_ (hnothing hnone)
    have hcount := howed.count_eq id
    rw [List.count_append] at hcount
    rw [IsHonoured, hgives id]
    omega
  | surrendered hgives howed =>
    rw [IsHonoured, hgives id, howed, robs]
    by_cases hback : id ∈ ledger.givenBack action
    · simp [hback]
    · simpa [hback, List.count_eq_zero_of_not_mem hback] using hhonoured
  | cleared hclose howed =>
    refine iff_of_true ?_ ?_
    · rw [IsHonoured, howed, List.count_nil]
      exact Nat.zero_le _
    · apply hnothing
      rw [givenBack, hclose]

/-- A document keeps what is owed over a run exactly if no action robs it. -/
theorem honoured_run (hhonoured : ledger.IsHonoured id)
    (hmark : ledger.mark ≤ ledger.desk.lists.length) :
    ledger.robsIn id actions = false ↔
      ∀ before, before <+: actions → (ledger.run before).IsHonoured id := by
  induction actions generalizing ledger with
  | nil =>
    refine iff_of_true rfl fun before hbefore => ?_
    rwa [List.prefix_nil.mp hbefore]
  | cons action rest ih =>
    have hnext := hhonoured.next_iff hmark action
    rw [robsIn, Bool.or_eq_false_iff, ← hnext]
    constructor
    · rintro ⟨hfirst, hrest⟩ before hbefore
      cases before with
      | nil => exact hhonoured
      | cons head before =>
        obtain ⟨rfl, hprefix⟩ := List.cons_prefix_cons.mp hbefore
        exact (ih hfirst (mark_le_next hmark head)).mp hrest before hprefix
    · intro hall
      have hfirst : (ledger.next action).IsHonoured id := hall [action] ⟨rest, rfl⟩
      refine ⟨hfirst, (ih hfirst (mark_le_next hmark action)).mpr fun before hbefore => ?_⟩
      exact hall (action :: before) ((List.prefix_cons_inj action).mpr hbefore)

/-- A document that is owed is open, if it has what is owed. -/
theorem IsHonoured.isLive (hhonoured : ledger.IsHonoured id) (howed : id ∈ ledger.owed) :
    ledger.desk.session.IsLive id :=
  Session.holdsAt_pos_iff.mp ((List.count_pos_iff.mpr howed).trans_le hhonoured)

/-- A list that was made since the last closing is owed its documents. -/
theorem mem_owed_of_list (hn : ledger.mark ≤ n) (hlist : ledger.desk.lists[n]? = some list)
    (hid : id ∈ list.documents) : id ∈ ledger.owed := by
  refine List.mem_append_right _ (List.mem_flatMap.mpr ⟨list, ?_, hid⟩)
  rw [List.mem_iff_getElem?]
  refine ⟨n - ledger.mark, ?_⟩
  rw [List.getElem?_drop, Nat.add_sub_cancel' hn, hlist]

/-- For every run and every document: it has at all times the holds that were taken on it since the
workspace was closed last, and is open as long as a list has it that was made since, exactly if
nobody gives back an older hold of it when there is none to spare. -/
theorem pinned_iff_not_robsIn (files : FileTree) (clients : List Client) (root : String)
    (encoding : PositionEncoding) (actions : List Action) (id : Nat) :
    (∀ before, before <+: actions →
        ((begin files clients root encoding).run before).IsHonoured id ∧
        ((begin files clients root encoding).run before).Pins id) ↔
      (begin files clients root encoding).robsIn id actions = false := by
  have hbegin : (begin files clients root encoding).IsHonoured id := Nat.zero_le _
  rw [honoured_run hbegin (Nat.le_refl 0)]
  constructor
  · intro hall before hbefore
    exact (hall before hbefore).1
  · intro hall before hbefore
    have hhonoured := hall before hbefore
    exact ⟨hhonoured, fun n list hn hlist hid =>
      hhonoured.isLive (mem_owed_of_list hn hlist hid)⟩

/-- A run in which a list is closed only after the workspace was closed and another list was made of
its document. -/
def closesOlderList : List Action :=
  [⟨0, .openDocument "a" none⟩, ⟨0, .buildList [0] [[(0, 1)]]⟩, ⟨0, .closeWorkspace⟩,
    ⟨1, .buildList [0] [[(0, 1)]]⟩, ⟨0, .closeList 0⟩]

/-- Nobody gives back more than they took, and yet the document of the newer list is closed. -/
theorem not_pinned_of_closesOlderList :
    (begin Sample.files [] "/w" .utf16).allOwn closesOlderList = true ∧
      ¬ ((begin Sample.files [] "/w" .utf16).run closesOlderList).Pins 0 := by
  refine ⟨by decide +kernel, fun hpins => ?_⟩
  obtain ⟨list, hlist, hid⟩ : ∃ list : LocationList,
      ((begin Sample.files [] "/w" .utf16).run closesOlderList).desk.lists[1]? = some list ∧
        0 ∈ list.documents := ⟨_, rfl, by decide +kernel⟩
  have hmark : ((begin Sample.files [] "/w" .utf16).run closesOlderList).mark ≤ 1 := by
    decide +kernel
  have hopen := Session.holdsAt_pos_iff.mpr (hpins 1 list hmark hlist hid)
  exact absurd hopen (by decide +kernel)

end Runs

section Exact

/-- The workspace has not been closed yet. -/
structure IsUnclosed (ledger : Ledger) : Prop where
  stale : ledger.stale = []
  mark : ledger.mark = 0

/-- As long as the workspace was not closed, those who give back only their own give back no older
holds. -/
theorem IsUnclosed.givenBack (hunclosed : ledger.IsUnclosed)
    (hown : ledger.isOwn action = true) : ledger.givenBack action = [] := by
  obtain ⟨caller, operation⟩ := action
  cases operation with
  | release id =>
    refine if_pos ?_
    simpa [isOwn, hunclosed.stale] using hown
  | closeList n =>
    refine if_neg ?_
    rw [hunclosed.mark]
    exact Nat.not_lt_zero n
  | _ => rfl

theorem IsUnclosed.next (hunclosed : ledger.IsUnclosed)
    (hopen : action.operation.isCloseWorkspace = false) : (ledger.next action).IsUnclosed := by
  refine ⟨?_, (mark_next hopen).trans hunclosed.mark⟩
  obtain ⟨caller, operation⟩ := action
  cases operation with
  | release id =>
    have hstale := hunclosed.stale
    simp [Ledger.next, hstale]
  | closeWorkspace => cases hopen
  | _ => exact hunclosed.stale

/-- Holds that are taken are owed, and holds that are given back are not owed any more. -/
theorem IsExact.next (hexact : ledger.IsExact) (hunclosed : ledger.IsUnclosed)
    (hopen : action.operation.isCloseWorkspace = false) (hown : ledger.isOwn action = true) :
    (ledger.next action).IsExact := by
  intro id
  have hholds := hexact id
  have hmark : ledger.mark ≤ ledger.desk.lists.length := by
    rw [hunclosed.mark]
    exact Nat.zero_le _
  cases settled_next hmark action with
  | taken ids htakes howed =>
    rw [htakes id, howed.count_eq, List.count_append]
    omega
  | returned ids hgives howed =>
    have hcount := howed.count_eq id
    rw [List.count_append] at hcount
    rw [hgives id]
    omega
  | surrendered hgives howed =>
    rw [hgives id, hunclosed.givenBack hown, howed, List.count_nil]
    exact hholds
  | cleared hclose =>
    rw [hclose] at hopen
    cases hopen

theorem exact_run (hexact : ledger.IsExact) (hunclosed : ledger.IsUnclosed)
    {actions : List Action} (hopen : ∀ action ∈ actions, action.operation.isCloseWorkspace = false)
    (hown : ledger.allOwn actions = true) :
    (ledger.run actions).IsExact ∧ (ledger.run actions).IsUnclosed := by
  induction actions generalizing ledger with
  | nil => exact ⟨hexact, hunclosed⟩
  | cons action rest ih =>
    obtain ⟨hfirst, hrest⟩ := Bool.and_eq_true_iff.mp hown
    have hclose := hopen action List.mem_cons_self
    exact ih (hexact.next hunclosed hclose hfirst) (hunclosed.next hclose)
      (fun other hother => hopen other (List.mem_cons_of_mem _ hother)) hrest

/-- The holds of the callers and those of the lists, one for each entry, that were taken on a
document and not given back. -/
def outstanding (ledger : Ledger) (id : Nat) : Nat :=
  (ledger.held.map Prod.snd).count id +
    (ledger.desk.lists.flatMap LocationList.documents).count id

/-- The holds of all documents are those of the callers and the lists. -/
structure IsAccounted (ledger : Ledger) : Prop where
  holds : ∀ id document, ledger.desk.session.documents[id]? = some document →
    document.holds = ledger.outstanding id
  isClosed : ∀ id document, ledger.desk.session.documents[id]? = some document →
    (document.isClosed = true ↔ ledger.outstanding id = 0)
  /-- The documents of a list are open until it is closed. -/
  isLive : ∀ (n : Nat) list, ledger.desk.lists[n]? = some list →
    ∀ id ∈ list.documents, ledger.desk.session.IsLive id
  /-- Closing a list gives back all of its holds. -/
  closeList : ∀ (n : Nat) list, ledger.desk.lists[n]? = some list → ∀ id,
    (ledger.desk.perform (.closeList n)).session.holdsAt id + list.documents.count id =
      ledger.desk.session.holdsAt id
  /-- Closing it again gives back nothing. -/
  closeList_again : ∀ n, (ledger.desk.perform (.closeList n)).perform (.closeList n) =
    ledger.desk.perform (.closeList n)

/-- A list that was emptied has nothing to give back. -/
theorem perform_closeList_again (desk : Desk) (n : Nat) :
    (desk.perform (.closeList n)).perform (.closeList n) = desk.perform (.closeList n) := by
  cases hlist : desk.lists[n]? with
  | none => simp only [Desk.perform, hlist]
  | some list =>
    have hlt := (List.getElem?_eq_some_iff.mp hlist).1
    simp [Desk.perform, hlt, Session.closeList]

/-- A list is owed each of its documents, so closing it gives back all of its holds. -/
theorem IsExact.closeList (hexact : ledger.IsExact) (hmark : ledger.mark = 0)
    (hlist : ledger.desk.lists[n]? = some list) (id : Nat) :
    (ledger.desk.perform (.closeList n)).session.holdsAt id + list.documents.count id =
      ledger.desk.session.holdsAt id := by
  have hcount := (perm_listed_set (hmark.trans_le (Nat.zero_le n)) hlist
    ledger.desk.session).count_eq id
  have hholds := hexact id
  have hgives := Session.gives_closeList ledger.desk.session list id
  rw [owed, List.count_append] at hholds
  rw [List.count_append] at hcount
  simp only [Desk.perform, hlist]
  omega

theorem IsExact.isAccounted (hexact : ledger.IsExact) (hmark : ledger.mark = 0) :
    ledger.IsAccounted := by
  have hholds id (document : TextDocument)
      (hdocument : ledger.desk.session.documents[id]? = some document) :
      document.holds = ledger.outstanding id := by
    rw [← Session.holdsAt_eq hdocument, hexact id, owed, List.count_append, listed, hmark]
    rfl
  constructor
  · exact hholds
  · intro id document hdocument
    rw [← hholds id document hdocument]
    exact beq_iff_eq
  · intro n list hlist id hid
    have hhonoured : ledger.IsHonoured id := (hexact id).ge
    exact hhonoured.isLive (mem_owed_of_list (hmark.trans_le (Nat.zero_le n)) hlist hid)
  · intro n list hlist
    exact hexact.closeList hmark hlist
  · exact perform_closeList_again ledger.desk

/-- For every run in which the workspace is not closed and nobody gives back more than they took:
all documents have exactly the holds that callers and lists have taken and not given back. -/
theorem holdsAccounted_run (files : FileTree) (clients : List Client) (root : String)
    (encoding : PositionEncoding) {actions : List Action}
    (hopen : ∀ action ∈ actions, action.operation.isCloseWorkspace = false)
    (hown : (begin files clients root encoding).allOwn actions = true) :
    ((begin files clients root encoding).run actions).IsAccounted := by
  have hexact : (begin files clients root encoding).IsExact := fun _ => rfl
  obtain ⟨hfinal, hunclosed⟩ := exact_run hexact ⟨rfl, rfl⟩ hopen hown
  exact hfinal.isAccounted hunclosed.mark

/-- A run in which two callers and two lists hold one document, and all of them give it back. -/
def holdsTogether : List Action :=
  [⟨0, .openDocument "a" none⟩, ⟨1, .acquire 0⟩, ⟨0, .buildList [0, 0] [[(0, 1)], []]⟩,
    ⟨0, .release 0⟩, ⟨1, .release 0⟩, ⟨0, .closeList 0⟩, ⟨1, .reopen 0⟩,
    ⟨1, .listLocations (.many [⟨"file:///w/a", ⟨⟨0, 0⟩, ⟨0, 1⟩⟩⟩])⟩]

/-- The run meets the conditions, so the holds are accounted for after it. -/
theorem holdsAccounted_of_holdsTogether :
    (∀ action ∈ holdsTogether, action.operation.isCloseWorkspace = false) ∧
    (begin Sample.files [] "/w" .utf16).allOwn holdsTogether = true ∧
    ((begin Sample.files [] "/w" .utf16).run holdsTogether).IsAccounted :=
  have hopen : ∀ action ∈ holdsTogether, action.operation.isCloseWorkspace = false := by decide
  have hown : (begin Sample.files [] "/w" .utf16).allOwn holdsTogether = true := by decide +kernel
  ⟨hopen, hown, holdsAccounted_run Sample.files [] "/w" .utf16 hopen hown⟩

end Exact

end Ledger

end LanguageClient
