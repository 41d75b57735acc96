import LanguageClient.Proofs.Workspace.Holds

/-!
# Who holds what

Every hold on a document belongs to somebody: to the caller who took it, or to a list of locations.
Closing the workspace gives all of them back, but their owners do not learn about it. What they give
back afterwards they no longer have, and it is taken from those who came later.
-/

namespace LanguageClient

/-- One operation on a workspace, and who asks for it. -/
structure Action where
  caller : Nat
  operation : Operation

/-- Whether the operation closes the workspace. -/
def Operation.isCloseWorkspace : Operation → Bool
  | .closeWorkspace => true
  | _ => false

/-- The document on which an operation takes a hold for its caller, unless it is refused. -/
def Desk.taken? (desk : Desk) : Operation → Option Nat
  | .openDocument target language =>
    (desk.session.openDocument target language).toOption.map Prod.fst
  | .acquire id => (desk.session.acquire id).toOption.map fun _ => id
  | .reopen id => (desk.session.reopen id).toOption.map fun _ => id
  | _ => none

/-- A desk, and the holds of those who work at it. -/
structure Ledger where
  desk : Desk
  /-- Who holds which document, by holds that were taken since the workspace was closed last. -/
  held : List (Nat × Nat)
  /-- Who believes to hold which document, by holds that were there when it was closed. -/
  stale : List (Nat × Nat)
  /-- How many lists had been made when it was closed. -/
  mark : Nat

namespace Ledger

/-- A ledger in which nobody holds anything yet. -/
def begin (files : FileTree) (clients : List Client) (root : String)
    (encoding : PositionEncoding) : Ledger :=
  ⟨.begin files clients root encoding, [], [], 0⟩

/-- What one action leads to. A hold that is given back is struck out, a recent one before one that
is older than the last closing. -/
def next (ledger : Ledger) (action : Action) : Ledger :=
  match action.operation with
  | .release id =>
    { ledger with
      desk := ledger.desk.perform (.release id)
      held := ledger.held.erase (action.caller, id)
      stale :=
        if (action.caller, id) ∈ ledger.held then ledger.stale
        else ledger.stale.erase (action.caller, id) }
  | .closeWorkspace =>
    ⟨ledger.desk.perform .closeWorkspace, [], ledger.held ++ ledger.stale,
      ledger.desk.lists.length⟩
  | operation =>
    { ledger with
      desk := ledger.desk.perform operation
      held := (ledger.desk.taken? operation).toList.map (action.caller, ·) ++ ledger.held }

/-- What actions lead to, one after the other. -/
abbrev run (ledger : Ledger) (actions : List Action) : Ledger :=
  Run.final next ledger actions

/-- Whether an action gives back a hold only if its caller took it and has not given it back. -/
def isOwn (ledger : Ledger) (action : Action) : Bool :=
  match action.operation with
  | .release id => decide ((action.caller, id) ∈ ledger.held ++ ledger.stale)
  | _ => true

/-- Whether nobody gives back more holds than they took. -/
def allOwn : Ledger → List Action → Bool
  | _, [] => true
  | ledger, action :: rest => ledger.isOwn action && (ledger.next action).allOwn rest

/-- The documents of the lists that were made since the workspace was closed last, one for each
entry. -/
def listed (ledger : Ledger) : List Nat :=
  (ledger.desk.lists.drop ledger.mark).flatMap LocationList.documents

/-- The documents that have to be open, as often as somebody holds them. -/
def owed (ledger : Ledger) : List Nat :=
  ledger.held.map Prod.snd ++ ledger.listed

/-- The documents of which an action gives back holds that are older than the last closing. -/
def givenBack (ledger : Ledger) (action : Action) : List Nat :=
  match action.operation with
  | .release id => if (action.caller, id) ∈ ledger.held then [] else [id]
  | .closeList n =>
    if n < ledger.mark then ((ledger.desk.lists[n]?).map LocationList.documents).getD [] else []
  | _ => []

/-- Whether an action gives back older holds of a document that has no more than are owed. -/
def robs (ledger : Ledger) (id : Nat) (action : Action) : Bool :=
  (ledger.givenBack action).contains id &&
    decide (ledger.desk.session.holdsAt id - (ledger.givenBack action).count id <
      ledger.owed.count id)

/-- Whether one of several actions does. -/
def robsIn (id : Nat) : Ledger → List Action → Bool
  | _, [] => false
  | ledger, action :: rest => ledger.robs id action || (ledger.next action).robsIn id rest

/-- A document has as many holds as are owed, or more. -/
def IsHonoured (ledger : Ledger) (id : Nat) : Prop :=
  ledger.owed.count id ≤ ledger.desk.session.holdsAt id

/-- A document is open if some list that was made since the workspace was closed last has it. -/
def Pins (ledger : Ledger) (id : Nat) : Prop :=
  ∀ n list, ledger.mark ≤ n → ledger.desk.lists[n]? = some list → id ∈ list.documents →
    ledger.desk.session.IsLive id

/-- Every document has exactly the holds that are owed. -/
def IsExact (ledger : Ledger) : Prop :=
  ∀ id, ledger.desk.session.holdsAt id = ledger.owed.count id

/-- What an action does to the holds, and to what is owed. -/
inductive Settled (ledger : Ledger) (action : Action) (after : Ledger) : Prop
  /-- Holds are taken, and owed from then on. -/
  | taken (ids : List Nat) (htakes : ledger.desk.session.Takes ids after.desk.session)
      (howed : after.owed.Perm (ids ++ ledger.owed)) (hnone : ledger.givenBack action = [])
  /-- Holds are given back, and no longer owed. -/
  | returned (ids : List Nat) (hgives : ledger.desk.session.Gives ids after.desk.session)
      (howed : ledger.owed.Perm (ids ++ after.owed)) (hnone : ledger.givenBack action = [])
  /-- Holds are given back that were not owed. -/
  | surrendered
      (hgives : ledger.desk.session.Gives (ledger.givenBack action) after.desk.session)
      (howed : after.owed = ledger.owed)
  /-- The workspace is closed, and nothing is owed any more. -/
  | cleared (hclose : action.operation = .closeWorkspace) (howed : after.owed = [])

variable {ledger after : Ledger} {action : Action} {ids : List Nat} {id n : Nat}
  {list : LocationList}

section Lists

/-- A list that is emptied takes what it had from all of them. -/
theorem perm_flatMap_documents_set {lists : List LocationList} (hlist : lists[n]? = some list) :
    (lists.flatMap LocationList.documents).Perm
      (list.documents ++ (lists.set n ⟨[]⟩).flatMap LocationList.documents) := by
  induction lists generalizing n with
  | nil => cases hlist
  | cons first rest ih =>
    cases n with
    | zero =>
      obtain rfl := Option.some.inj hlist
      exact .refl _
    | succ n =>
      rw [List.set_cons_succ, List.flatMap_cons, List.flatMap_cons]
      exact ((ih hlist).append_left _).trans (List.perm_append_comm_assoc _ _ _)

/-- A list that is made is one of those that were made since the last closing. -/
theorem listed_append (hmark : ledger.mark ≤ ledger.desk.lists.length) {session : Session} :
    { ledger with desk := ⟨session, ledger.desk.lists ++ [list]⟩ }.listed =
      ledger.listed ++ list.documents := by
  rw [listed, listed, List.drop_append_of_le_length hmark, List.flatMap_append,
    List.flatMap_singleton]

/-- A list of before the last closing is not among those that were made since. -/
theorem listed_set_of_lt (hn : n < ledger.mark) {session : Session} :
    { ledger with desk := ⟨session, ledger.desk.lists.set n list⟩ }.listed = ledger.listed := by
  rw [listed, listed, List.drop_set_of_lt hn]

/-- A list that was made since the last closing is owed its documents until it is closed. -/
theorem perm_listed_set (hn : ledger.mark ≤ n) (hlist : ledger.desk.lists[n]? = some list)
    (session : Session) : ledger.listed.Perm (list.documents ++
      { ledger with desk := ⟨session, ledger.desk.lists.set n ⟨[]⟩⟩ }.listed) := by
  have hdrop : (ledger.desk.lists.drop ledger.mark)[n - ledger.mark]? = some list := by
    rw [List.getElem?_drop, Nat.add_sub_cancel' hn, hlist]
  rw [listed, listed, List.drop_set, if_neg (Nat.not_lt.mpr hn)]
  exact perm_flatMap_documents_set hdrop

end Lists

section Steps

/-- Whatever is not refused for taking no hold takes none, and neither does what is refused. -/
theorem takes_take {ε : Type} {desk : Desk} {result : Except ε Session}
    (htakes : ∀ session, result = .ok session → desk.session.Takes [] session) :
    desk.session.Takes [] (desk.take result).session := by
  cases result with
  | error error => exact .of_documents rfl
  | ok session => exact htakes session rfl

/-- An operation that makes no list and takes no hold leaves everything that is owed. -/
theorem Settled.kept (htakes : ledger.desk.session.Takes [] after.desk.session)
    (hlists : after.desk.lists = ledger.desk.lists) (hheld : after.held = ledger.held)
    (hmark : after.mark = ledger.mark) (hnone : ledger.givenBack action = []) :
    Settled ledger action after := by
  refine .taken [] htakes ?_ hnone
  rw [owed, listed, hlists, hheld, hmark]
  exact .refl _

/-- A caller who takes a hold is owed it. -/
theorem Settled.held (htakes : ledger.desk.session.Takes ids after.desk.session)
    (hlists : after.desk.lists = ledger.desk.lists)
    (hheld : after.held = ids.map (action.caller, ·) ++ ledger.held)
    (hmark : after.mark = ledger.mark) (hnone : ledger.givenBack action = []) :
    Settled ledger action after := by
  refine .taken ids htakes ?_ hnone
  have hids : (ids.map (action.caller, ·)).map Prod.snd = ids := by
    rw [List.map_map]
    exact List.map_id _
  rw [owed, listed, hlists, hheld, hmark, List.map_append, hids, List.append_assoc]
  exact .refl _

theorem session_take_release (desk : Desk) (id : Nat) :
    (desk.take (desk.session.release id)).session = desk.session.releaseIfOpen id := by
  unfold Session.releaseIfOpen
  cases desk.session.release id <;> rfl

/-- A hold that a caller has and gives back is no longer owed; any other one was not owed. -/
theorem settled_release (caller : Nat) (id : Nat) :
    Settled ledger ⟨caller, .release id⟩ (ledger.next ⟨caller, .release id⟩) := by
  have hgives : ledger.desk.session.Gives [id] (ledger.desk.perform (.release id)).session := by
    have h := Session.gives_releaseIfOpen ledger.desk.session id
    rwa [← session_take_release] at h
  have hlisted : (ledger.next ⟨caller, .release id⟩).listed = ledger.listed :=
    congrArg (fun lists => (List.drop ledger.mark lists).flatMap LocationList.documents)
      (Desk.lists_take _ _)
  by_cases hheld : (caller, id) ∈ ledger.held
  · refine .returned [id] hgives ?_ (if_pos hheld)
    rw [owed, owed, hlisted]
    exact ((List.perm_cons_erase hheld).map Prod.snd).append_right _
  · have hback : ledger.givenBack ⟨caller, .release id⟩ = [id] := if_neg hheld
    have hsame : (ledger.next ⟨caller, .release id⟩).held = ledger.held :=
      List.erase_of_not_mem hheld
    refine .surrendered ?_ ?_
    · rwa [hback]
    · rw [owed, owed, hlisted, hsame]

/-- A list that was made since the last closing gives back what it is owed; any other one was owed
nothing. -/
theorem settled_closeList (caller n : Nat) :
    Settled ledger ⟨caller, .closeList n⟩ (ledger.next ⟨caller, .closeList n⟩) := by
  cases hlist : ledger.desk.lists[n]? with
  | none =>
    have hdesk : ledger.desk.perform (.closeList n) = ledger.desk := by
      simp only [Desk.perform, hlist]
    have hnone : ledger.givenBack ⟨caller, .closeList n⟩ = [] := by
      simp [givenBack, hlist]
    have hnext : ledger.next ⟨caller, .closeList n⟩ = ledger := by
      simp [next, hdesk, Desk.taken?]
    rw [hnext]
    exact .kept (.of_documents rfl) rfl rfl rfl hnone
  | some list =>
    have hgives := Session.gives_closeList ledger.desk.session list
    have hnext : ledger.next ⟨caller, .closeList n⟩ = { ledger with
        desk := ⟨ledger.desk.session.closeList list, ledger.desk.lists.set n ⟨[]⟩⟩ } := by
      simp [next, Desk.perform, hlist, Desk.taken?]
    rw [hnext]
    by_cases hn : n < ledger.mark
    · have hback : ledger.givenBack ⟨caller, .closeList n⟩ = list.documents := by
        simp [givenBack, hlist, hn]
      refine .surrendered ?_ ?_
      · rw [hback]
        exact hgives
      · rw [owed, owed, listed_set_of_lt hn]
    · refine .returned list.documents hgives ?_ (if_neg hn)
      have hlisted := perm_listed_set (Nat.not_lt.mp hn) hlist
        (ledger.desk.session.closeList list)
      exact (hlisted.append_left _).trans (List.perm_append_comm_assoc _ _ _)

/-- A list that is made is owed its documents. -/
theorem settled_made (hmark : ledger.mark ≤ ledger.desk.lists.length) {session : Session}
    (htakes : ledger.desk.session.Takes list.documents session)
    (hnext : after = { ledger with desk := ⟨session, ledger.desk.lists ++ [list]⟩ })
    (hnone : ledger.givenBack action = []) : Settled ledger action after := by
  subst hnext
  refine .taken list.documents htakes ?_ hnone
  rw [owed, owed, listed_append hmark, ← List.append_assoc]
  exact List.perm_append_comm

/-- An operation takes a hold for its caller exactly if it is not refused. -/
theorem takes_opened (desk : Desk) (target : String) (language : Option String) :
    desk.session.Takes (desk.taken? (.openDocument target language)).toList
      (desk.perform (.openDocument target language)).session := by
  rw [Desk.taken?, Desk.perform]
  cases hopen : desk.session.openDocument target language with
  | error error => exact .of_documents rfl
  | ok result => exact Session.takes_openDocument hopen

theorem takes_acquired (desk : Desk) (id : Nat) :
    desk.session.Takes (desk.taken? (.acquire id)).toList
      (desk.perform (.acquire id)).session := by
  rw [Desk.taken?, Desk.perform]
  cases hacquire : desk.session.acquire id with
  | error error => exact .of_documents rfl
  | ok session => exact Session.takes_acquire hacquire

theorem takes_reopened (desk : Desk) (id : Nat) :
    desk.session.Takes (desk.taken? (.reopen id)).toList (desk.perform (.reopen id)).session := by
  rw [Desk.taken?, Desk.perform]
  cases hreopen : desk.session.reopen id with
  | error error => exact .of_documents rfl
  | ok session => exact Session.takes_reopen hreopen

/-- Queueing an edit changes no hold. -/
theorem settled_queue {change : TextDocument → Except DocumentError TextDocument}
    (hholds : ∀ document changed, change document = .ok changed → changed.holds = document.holds)
    (hnext : after =
      { ledger with desk := ledger.desk.take (ledger.desk.session.modifyDocument id change) })
    (hnone : ledger.givenBack action = []) : Settled ledger action after := by
  subst hnext
  exact .kept (takes_take fun _ => Session.takes_modifyDocument hholds) (Desk.lists_take _ _)
    rfl rfl hnone

/-- Every action settles what it does to the holds. -/
theorem settled_next (hmark : ledger.mark ≤ ledger.desk.lists.length) (action : Action) :
    Settled ledger action (ledger.next action) := by
  obtain ⟨caller, operation⟩ := action
  cases operation with
  | openDocument target language =>
    exact .held (takes_opened _ target language) (Desk.lists_take _ _) rfl rfl rfl
  | acquire id => exact .held (takes_acquired _ id) (Desk.lists_take _ _) rfl rfl rfl
  | release id => exact settled_release caller id
  | reopen id => exact .held (takes_reopened _ id) (Desk.lists_take _ _) rfl rfl rfl
  | edit id text start stop => exact settled_queue (fun _ _ => Session.holds_edit) rfl rfl
  | insert id text offset => exact settled_queue (fun _ _ => Session.holds_edit) rfl rfl
  | delete id start stop => exact settled_queue (fun _ _ => Session.holds_edit) rfl rfl
  | pushTextEdit id edit =>
    refine settled_queue (fun document changed hpush => ?_) rfl rfl
    obtain ⟨start, stop, hedit⟩ := pushTextEdit_ok hpush
    exact Session.holds_edit hedit
  | discardEdits id =>
    refine settled_queue (fun document changed hdiscard => ?_) rfl rfl
    obtain rfl := Except.ok.inj hdiscard
    rfl
  | commit id =>
    exact .kept (takes_take fun _ => Session.takes_commit) (Desk.lists_take _ _) rfl rfl rfl
  | buildList documents ranges =>
    have hnext : ledger.next ⟨caller, .buildList documents ranges⟩ =
        { ledger with desk := ledger.desk.perform (.buildList documents ranges) } := rfl
    rw [hnext, Desk.perform]
    cases hbuild : ledger.desk.session.buildList documents ranges with
    | error error => exact .kept (.of_documents rfl) rfl rfl rfl rfl
    | ok result => exact settled_made hmark (Session.takes_buildList hbuild) rfl rfl
  | listLocations locations =>
    have hnext : ledger.next ⟨caller, .listLocations locations⟩ =
        { ledger with desk := ledger.desk.perform (.listLocations locations) } := rfl
    rw [hnext, Desk.perform]
    cases hlist : ledger.desk.session.listOfLocations locations with
    | mk result session =>
      have htakes := Session.takes_listOfLocations hlist
      cases result with
      | error error => exact .kept htakes rfl rfl rfl rfl
      | ok list => exact settled_made hmark htakes rfl rfl
  | closeList n => exact settled_closeList caller n
  | closeWorkspace =>
    refine .cleared rfl ?_
    change [] ++ (ledger.desk.lists.drop ledger.desk.lists.length).flatMap _ = []
    rw [List.drop_length]
    rfl
  | changeFiles files => exact .kept (.of_documents rfl) rfl rfl rfl rfl
  | attach client => exact .kept (Session.takes_attach _ _) rfl rfl rfl rfl

end Steps

end Ledger

end LanguageClient
