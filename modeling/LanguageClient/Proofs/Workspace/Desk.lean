import LanguageClient.Proofs.Runs
import LanguageClient.Workspace.Locations

/-!
# Working on a workspace

Documents of one workspace are opened, held, edited, committed and closed in any order, lists of
locations are made and given back, and the workspace is closed. In between, the files may change. An
operation that is refused leaves everything as it was, apart from the documents that a list was to
hold, which are opened before it turns out that the list cannot be made.
-/

namespace LanguageClient

/-- A session, and the lists of locations that were made in it. -/
structure Desk where
  session : Session
  lists : List LocationList

/-- One operation on a workspace, its documents or its lists. -/
inductive Operation
  | openDocument (target : String) (language : Option String)
  | acquire (id : Nat)
  /-- Gives one hold of a document back. -/
  | release (id : Nat)
  | reopen (id : Nat)
  | edit (id : Nat) (text : String) (start stop : Nat)
  | insert (id : Nat) (text : String) (offset : Nat)
  | delete (id : Nat) (start stop : Nat)
  | pushTextEdit (id : Nat) (edit : TextEdit)
  | discardEdits (id : Nat)
  | commit (id : Nat)
  /-- Makes a list of documents and their ranges. -/
  | buildList (documents : List Nat) (ranges : List (List OffsetRange))
  /-- Makes a list of the targets of locations. -/
  | listLocations (locations : Locations)
  /-- Closes or drops a list, whichever comes first. -/
  | closeList (list : Nat)
  | closeWorkspace
  | changeFiles (files : FileTree)
  /-- Attaches the client at a place. -/
  | attach (client : Nat)

namespace Operation

/-- Whether the operation attaches a client. -/
def isAttach : Operation → Bool
  | .attach _ => true
  | _ => false

/-- The text that the operation queues in place of another one. -/
def text? : Operation → Option String
  | .edit _ text _ _ | .insert _ text _ => some text
  | .delete _ _ _ => some ""
  | .pushTextEdit _ replacement => some replacement.newText
  | _ => none

end Operation

namespace Session

/-- Whether giving back one hold closes a document that the workspace does not have at its address:
another copy is open there, or none. -/
def releaseStrays (session : Session) (id : Nat) : Bool :=
  session.documents[id]?.any fun document =>
    document.holds == 1 && session.openAt? document.uri != some id

/-- Whether giving back holds one after the other closes such a document. -/
def releasesStray : Session → List Nat → Bool
  | _, [] => false
  | session, id :: rest => session.releaseStrays id || (session.releaseIfOpen id).releasesStray rest

/-- No other document that is open has the address of this one. -/
def IsAlone (session : Session) (id : Nat) : Prop :=
  ∀ document, session.documents[id]? = some document →
    ∀ n other, session.documents[n]? = some other → other.isClosed = false →
      other.uri = document.uri → n = id

/-- Each document is alone at its address when it is opened again, one after the other. -/
def AreAlone : Session → List Nat → Prop
  | _, [] => True
  | session, id :: rest =>
    session.IsAlone id ∧ ∀ after, session.reopen id = .ok after → after.AreAlone rest

end Session

namespace Desk

/-- A desk with clients, a workspace, and nothing done yet. -/
def begin (files : FileTree) (clients : List Client) (root : String)
    (encoding : PositionEncoding) : Desk :=
  ⟨{ Session.start files with clients }.beginWorkspace root encoding, []⟩

/-- Takes over what an operation has made of the session, unless it was refused. -/
def take {ε : Type} (desk : Desk) : Except ε Session → Desk
  | .ok session => { desk with session }
  | .error _ => desk

/-- What one operation leads to. -/
def perform (desk : Desk) : Operation → Desk
  | .openDocument target language =>
    desk.take ((desk.session.openDocument target language).map Prod.snd)
  | .acquire id => desk.take (desk.session.acquire id)
  | .release id => desk.take (desk.session.release id)
  | .reopen id => desk.take (desk.session.reopen id)
  | .edit id text start stop =>
    desk.take (desk.session.modifyDocument id fun document => document.edit text start stop)
  | .insert id text offset =>
    desk.take (desk.session.modifyDocument id fun document => document.insert text offset)
  | .delete id start stop =>
    desk.take (desk.session.modifyDocument id fun document => document.delete start stop)
  | .pushTextEdit id edit =>
    desk.take (desk.session.modifyDocument id fun document => document.pushTextEdit edit)
  | .discardEdits id =>
    desk.take (desk.session.modifyDocument id fun document => .ok document.discardEdits)
  | .commit id => desk.take (desk.session.commit id)
  | .buildList documents ranges =>
    match desk.session.buildList documents ranges with
    | .ok (list, session) => ⟨session, desk.lists ++ [list]⟩
    | .error _ => desk
  | .listLocations locations =>
    match desk.session.listOfLocations locations with
    | (.ok list, session) => ⟨session, desk.lists ++ [list]⟩
    | (.error _, session) => { desk with session }
  | .closeList n =>
    match desk.lists[n]? with
    | some list => ⟨desk.session.closeList list, desk.lists.set n ⟨[]⟩⟩
    | none => desk
  | .closeWorkspace => { desk with session := desk.session.closeWorkspace }
  | .changeFiles files => { desk with session := { desk.session with files } }
  | .attach client => { desk with session := desk.session.attach client }

theorem lists_take {ε : Type} (desk : Desk) (result : Except ε Session) :
    (desk.take result).lists = desk.lists := by
  cases result <;> rfl

/-- The list that an operation makes, unless it is refused. -/
def made? (desk : Desk) : Operation → Option LocationList
  | .buildList documents ranges =>
    (desk.session.buildList documents ranges).toOption.map Prod.fst
  | .listLocations locations => (desk.session.listOfLocations locations).1.toOption
  | _ => none

/-- A list that was made stays as it is until it is closed, and its place is never taken. -/
theorem lists_perform (desk : Desk) (operation : Operation) :
    (desk.perform operation).lists = desk.lists ++ (desk.made? operation).toList ∨
      ∃ n, operation = .closeList n ∧
        (desk.perform operation).lists = desk.lists.set n ⟨[]⟩ := by
  have hsame {after : Desk} (hlists : after.lists = desk.lists) :
      after.lists = desk.lists ++ [] := by rw [hlists, List.append_nil]
  cases operation with
  | buildList documents ranges =>
    rw [perform, made?]
    cases desk.session.buildList documents ranges with
    | error error => exact Or.inl (hsame rfl)
    | ok result => exact Or.inl rfl
  | listLocations locations =>
    rw [perform, made?]
    cases desk.session.listOfLocations locations with
    | mk result session =>
      cases result with
      | error error => exact Or.inl (hsame rfl)
      | ok list => exact Or.inl rfl
  | closeList n =>
    rw [perform]
    split
    · exact Or.inr ⟨n, rfl, rfl⟩
    · exact Or.inl (hsame rfl)
  | closeWorkspace | changeFiles | attach => exact Or.inl (hsame rfl)
  | _ => exact Or.inl (hsame (lists_take _ _))

/-- A list that is made gets the next place. -/
theorem getElem?_lists_of_made {desk : Desk} {operation : Operation} {list : LocationList}
    (hmade : desk.made? operation = some list) :
    (desk.perform operation).lists[desk.lists.length]? = some list := by
  obtain hlists | ⟨n, rfl, -⟩ := desk.lists_perform operation
  · rw [hlists, hmade]
    exact List.getElem?_concat_length
  · cases hmade

/-- Whether an operation commits the edits of a document and is not refused. -/
def commits (desk : Desk) (id : Nat) : Operation → Bool
  | .commit n => n == id && (desk.session.commit n).isOk
  | _ => false

/-- Whether an operation closes a document that the workspace does not have at its address. -/
def strays (desk : Desk) : Operation → Bool
  | .release id => desk.session.releaseStrays id
  | .closeList n => desk.lists[n]?.any fun list =>
    desk.session.releasesStray (list.entries.map LocationEntry.document)
  | _ => false

/-- What an operation opens again is alone at its address. A list opens its documents again only if
it has as many ranges. -/
def ReopensAlone (desk : Desk) : Operation → Prop
  | .reopen id => desk.session.IsAlone id
  | .buildList documents ranges =>
    documents.length = ranges.length → desk.session.AreAlone documents
  | _ => True

/-- What operations open again is alone at its address, one after the other. -/
def AllReopenAlone : Desk → List Operation → Prop
  | _, [] => True
  | desk, operation :: rest =>
    desk.ReopensAlone operation ∧ (desk.perform operation).AllReopenAlone rest

/-- How often operations commit the edits of a document. -/
def commitsIn (id : Nat) : Desk → List Operation → Nat
  | _, [] => 0
  | desk, operation :: rest =>
    (desk.commits id operation).toNat + (desk.perform operation).commitsIn id rest

/-- What operations lead to, one after the other. -/
abbrev performAll (desk : Desk) (operations : List Operation) : Desk :=
  Run.final perform desk operations

/-- One operation stands between those before it and those after it. -/
theorem performAll_append_cons (desk : Desk) (before : List Operation) (operation : Operation)
    (after : List Operation) : desk.performAll (before ++ operation :: after) =
      ((desk.performAll before).perform operation).performAll after := by
  rw [performAll, Run.final, List.foldl_append, List.foldl_cons]
  rfl

/-- The commits of a run are those of its parts. -/
theorem commitsIn_append (desk : Desk) (id : Nat) (before after : List Operation) :
    desk.commitsIn id (before ++ after) =
      desk.commitsIn id before + (desk.performAll before).commitsIn id after := by
  induction before generalizing desk with
  | nil => exact (Nat.zero_add _).symm
  | cons operation rest ih =>
    rw [List.cons_append, commitsIn, commitsIn, ih, Nat.add_assoc]
    rfl

/-- No more edits are committed than there are operations. -/
theorem commitsIn_le_length (desk : Desk) (id : Nat) (operations : List Operation) :
    desk.commitsIn id operations ≤ operations.length := by
  induction operations generalizing desk with
  | nil => exact Nat.le_refl 0
  | cons operation rest ih =>
    have hrest := ih (desk.perform operation)
    have hfirst := Bool.toNat_le (desk.commits id operation)
    rw [commitsIn, List.length_cons]
    omega

/-- Runs in which each document is alone when it is opened again can be taken apart. -/
theorem allReopenAlone_append (desk : Desk) (before after : List Operation) :
    desk.AllReopenAlone (before ++ after) ↔
      desk.AllReopenAlone before ∧ (desk.performAll before).AllReopenAlone after := by
  induction before generalizing desk with
  | nil => exact (iff_of_eq (true_and _)).symm
  | cons operation rest ih =>
    rw [List.cons_append, AllReopenAlone, AllReopenAlone, ih, and_assoc]
    rfl

end Desk

end LanguageClient
