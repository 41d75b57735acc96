import LanguageClient.Proofs.Fields
import LanguageClient.Workspace.Documents

/-!
# What can become of a document

Everything that the operations on a workspace do to documents is made of a few kinds of shifts: a
document changes in place, its edits are committed, it is closed, it is opened again, or a new one
is read. Each shift is said once, with what the clients are told of it.
-/

namespace LanguageClient

/-- What a shift is about, as far as anyone else has to know. -/
inductive Turn
  | quiet
  | filed (files : FileTree)
  | queued (text : String)
  | opened (document : TextDocument)
  | changed (id : Nat) (change : DocumentChange)
  /-- A document is closed; it is a stray one if the workspace does not have it at its address. -/
  | closed (document : TextDocument) (isStray : Bool)
  /-- A document is opened again while the workspace has another one at its address. -/
  | shadowed (id : Nat)

namespace Turn

/-- Whether a stray document is closed. -/
def isStray : Turn → Bool
  | .closed _ isStray => isStray
  | _ => false

/-- Whether documents are at most held or opened. -/
def isCalm : Turn → Bool
  | .quiet | .opened _ => true
  | _ => false

/-- Whether documents are at most held, opened or closed. -/
def isPlain : Turn → Bool
  | .quiet | .opened _ | .closed _ _ => true
  | _ => false

theorem isPlain_of_isCalm {turn : Turn} (hcalm : turn.isCalm = true) : turn.isPlain = true := by
  cases turn <;> first | rfl | cases hcalm

theorem isStray_of_isCalm {turn : Turn} (hcalm : turn.isCalm = true) : turn.isStray = false := by
  cases turn <;> first | rfl | cases hcalm

/-- Whether the edits of a document are committed. -/
def changes (id : Nat) : Turn → Bool
  | .changed n _ => n == id
  | _ => false

theorem changes_of_isPlain {turn : Turn} (hplain : turn.isPlain = true) (id : Nat) :
    turn.changes id = false := by
  cases turn <;> first | rfl | cases hplain

/-- What a server hears about an address: a document is open there now, or none is. -/
def openness? (uri : String) : Turn → Option Bool
  | .opened document => if document.uri = uri then some true else none
  | .closed document _ => if document.uri = uri then some false else none
  | _ => none

/-- What a client is told. -/
def say (files : FileTree) (turn : Turn) (client : Client) : Except ClientError (Bool × Client) :=
  match turn with
  | .opened document => client.didOpen files document.toItem
  | .changed _ change => client.didChange files change
  | .closed document _ => client.didClose files document.uri document.language
  | _ => .ok (false, client)

end Turn

namespace Session

/-- Tells all clients of the workspace. -/
def say (session : Session) (turn : Turn) : Session :=
  session.tell ((session.workspace.map Workspace.clients).getD []) (turn.say session.files)

section Frame

variable (session : Session) (ids : List Nat) (said : Client → Except ClientError (Bool × Client))

/-- Telling clients something changes nothing but the clients. -/
theorem tell_keeps :
    (session.tell ids said).documents = session.documents ∧
    (session.tell ids said).workspace = session.workspace ∧
    (session.tell ids said).files = session.files := by
  unfold tell
  induction ids generalizing session with
  | nil => exact ⟨rfl, rfl, rfl⟩
  | cons id rest ih =>
    rw [List.foldl_cons]
    exact ih _

@[simp] theorem documents_say (turn : Turn) : (session.say turn).documents = session.documents :=
  (tell_keeps session _ _).1

@[simp] theorem workspace_say (turn : Turn) : (session.say turn).workspace = session.workspace :=
  (tell_keeps session _ _).2.1

@[simp] theorem files_say (turn : Turn) : (session.say turn).files = session.files :=
  (tell_keeps session _ _).2.2

end Frame

end Session

namespace Session

/-- Whether there is an open document at a place. -/
def IsLive (session : Session) (id : Nat) : Prop :=
  ∃ document, session.documents[id]? = some document ∧ document.isClosed = false

/-- The document at a place is the one that the workspace has at its address, if it is open. -/
def Housed (session : Session) (id : Nat) : Prop :=
  ∀ document, session.documents[id]? = some document → document.isClosed = false →
    session.openAt? document.uri = some id

variable {session : Session} {id n : Nat} {document changed later : TextDocument}

/-- Putting a document in place of another one leaves all others as they are. -/
theorem getElem?_setDocument
    (hlater : (session.setDocument id changed).documents[n]? = some later) :
    (n = id ∧ later = changed) ∨ (n ≠ id ∧ session.documents[n]? = some later) := by
  by_cases hn : n = id
  · subst hn
    obtain ⟨hlt, hget⟩ := List.getElem?_eq_some_iff.mp hlater
    exact Or.inl ⟨rfl, hget.symm.trans (List.getElem_set_self hlt)⟩
  · exact Or.inr ⟨hn, (List.getElem?_set_ne (Ne.symm hn)).symm.trans hlater⟩

/-- An open document stays open while another one changes, or while it changes in place itself
without being closed. -/
theorem IsLive.set (hlive : session.IsLive n) (hdocument : session.documents[id]? = some document)
    (hopen : document.isClosed = false → changed.isClosed = false) :
    (session.setDocument id changed).IsLive n := by
  obtain ⟨other, hother, hother_open⟩ := hlive
  by_cases hn : id = n
  · subst hn
    obtain rfl := Option.some.inj (hdocument.symm.trans hother)
    have hlt := (List.getElem?_eq_some_iff.mp hdocument).1
    exact ⟨changed, List.getElem?_set_self hlt, hopen hother_open⟩
  · exact ⟨other, (List.getElem?_set_ne hn).trans hother, hother_open⟩

/-- A document stays at its address while another one changes, or while it changes in place itself
without being opened. -/
theorem Housed.set (hhoused : session.Housed n) (hdocument : session.documents[id]? = some document)
    (huri : changed.uri = document.uri)
    (hopen : n = id → changed.isClosed = false → document.isClosed = false) :
    (session.setDocument id changed).Housed n := by
  intro later hlater hlive
  rcases getElem?_setDocument hlater with ⟨rfl, rfl⟩ | ⟨-, hother⟩
  · rw [huri]
    exact hhoused document hdocument (hopen rfl hlive)
  · exact hhoused later hother hlive

end Session

/-- The document without any hold and without the edits that were not committed. -/
def TextDocument.closed (document : TextDocument) : TextDocument :=
  { document with holds := 0, edits := [] }

/-- Everything that can happen to the documents of a workspace at once. -/
inductive Shift (session : Session) : Turn → Session → Prop
  | filed (files : FileTree) : Shift session (.filed files) { session with files }
  | held (id : Nat) (document : TextDocument) (holds : Nat)
      (hdocument : session.documents[id]? = some document) (hopen : document.isClosed = false)
      (hholds : 0 < holds) :
      Shift session .quiet (session.setDocument id { document with holds })
  | discarded (id : Nat) (document : TextDocument)
      (hdocument : session.documents[id]? = some document) :
      Shift session .quiet (session.setDocument id document.discardEdits)
  | queued (id : Nat) (document : TextDocument) (edit : PendingEdit) (edits : EditQueue)
      (hdocument : session.documents[id]? = some document) (hopen : document.isClosed = false)
      (hstart : Text.isBoundary edit.start document.text.toList = true)
      (hstop : Text.isBoundary edit.stop document.text.toList = true)
      (hle : edit.start ≤ edit.stop) (hinsert : document.edits.insert? edit = some edits) :
      Shift session (.queued edit.text) (session.setDocument id { document with edits })
  | changed (id : Nat) (document committed : TextDocument) (change : DocumentChange)
      (hdocument : session.documents[id]? = some document)
      (hcommit : document.commit = .ok (committed, change)) :
      Shift session (.changed id change)
        ((session.setDocument id committed).say (.changed id change))
  | closed (id : Nat) (document : TextDocument)
      (hdocument : session.documents[id]? = some document) (hopen : document.isClosed = false) :
      Shift session (.closed document (session.openAt? document.uri != some id))
        (((session.setDocument id document.closed).modifyWorkspace
          (·.dropDocument document.uri id)).say
          (.closed document (session.openAt? document.uri != some id)))
  | reopened (id : Nat) (document : TextDocument)
      (hdocument : session.documents[id]? = some document) (hclosed : document.isClosed = true)
      (hnone : session.openAt? document.uri = none) :
      Shift session (.opened { document with holds := 1 })
        (((session.setDocument id { document with holds := 1 }).modifyWorkspace
          (·.putDocument document.uri id)).say (.opened { document with holds := 1 }))
  | shadowed (id other : Nat) (document : TextDocument)
      (hdocument : session.documents[id]? = some document) (hclosed : document.isClosed = true)
      (hother : session.openAt? document.uri = some other) :
      Shift session (.shadowed id) (session.setDocument id { document with holds := 1 })
  | fresh (workspace : Workspace) (path uri language text : String) (document : TextDocument)
      (hworkspace : session.workspace = some workspace)
      (hnew : document =
        .opened workspace.number path uri language text workspace.encoding)
      (hread : session.files.readText path = .ok text) (hnone : session.openAt? uri = none) :
      Shift session (.opened document)
        (({ session with documents := session.documents ++ [document] }.modifyWorkspace
          (·.putDocument uri session.documents.length)).say (.opened document))

/-- Several shifts, one after the other. -/
inductive Path : Session → List Turn → Session → Prop
  | nil (session : Session) : Path session [] session
  | cons {session middle after : Session} {turn : Turn} {turns : List Turn}
      (hshift : Shift session turn middle) (hpath : Path middle turns after) :
      Path session (turn :: turns) after

theorem Path.single {session after : Session} {turn : Turn} (hshift : Shift session turn after) :
    Path session [turn] after :=
  .cons hshift (.nil after)

theorem Path.append {session middle after : Session} {turns more : List Turn}
    (hpath : Path session turns middle) (hmore : Path middle more after) :
    Path session (turns ++ more) after := by
  induction hpath with
  | nil => exact hmore
  | cons hshift _ ih => exact .cons hshift (ih hmore)

namespace Session

/-- What the workspace has at its addresses. -/
def shelf (session : Session) : List (String × Nat) :=
  (session.workspace.map Workspace.openDocuments).getD []

theorem openAt?_eq_lookup (session : Session) (uri : String) :
    session.openAt? uri = session.shelf.lookup uri := by
  unfold openAt? shelf
  cases session.workspace <;> rfl

@[simp] theorem shelf_say (session : Session) (turn : Turn) :
    (session.say turn).shelf = session.shelf := by
  unfold shelf
  rw [workspace_say]

theorem openAt?_say (session : Session) (turn : Turn) (uri : String) :
    (session.say turn).openAt? uri = session.openAt? uri := by
  rw [openAt?_eq_lookup, shelf_say, openAt?_eq_lookup]

theorem shelf_dropDocument (session : Session) (uri : String) (id : Nat) :
    (session.modifyWorkspace (·.dropDocument uri id)).shelf =
      session.shelf.filter fun entry => entry.1 != uri || entry.2 != id := by
  unfold shelf modifyWorkspace
  cases session.workspace <;> rfl

theorem shelf_putDocument {session : Session} (hhere : session.workspace.isSome = true)
    (uri : String) (id : Nat) :
    (session.modifyWorkspace (·.putDocument uri id)).shelf = insertField uri id session.shelf := by
  obtain ⟨workspace, hworkspace⟩ := Option.isSome_iff_exists.mp hhere
  simp only [shelf, modifyWorkspace, hworkspace, Option.map_some, Option.getD_some,
    Workspace.putDocument]

end Session

end LanguageClient
