import LanguageClient.Proofs.Feature.Static
import LanguageClient.Proofs.Workspace.Paths

/-!
# What a client is told

A client that is attached to a workspace is told of every document that is opened or closed and, in
one of two forms, of every change. It is told nothing before it is attached.
-/

namespace LanguageClient

namespace Message

/-- The notice that a document is open now. -/
def didOpen (document : TextDocument) : Message :=
  .notification ⟨protocolVersion, "textDocument/didOpen",
    some (encode (DidOpenParams.mk document.toItem))⟩

/-- The notice that a document has changed. -/
def didChange (change : DocumentChange) (events : List ChangeEvent) : Message :=
  .notification ⟨protocolVersion, "textDocument/didChange",
    some (encode (DidChangeParams.mk ⟨change.uri, change.version⟩ events))⟩

/-- The notice that a document is closed now. -/
def didClose (uri : String) : Message :=
  .notification ⟨protocolVersion, "textDocument/didClose", some (encode (DidCloseParams.mk ⟨uri⟩))⟩

end Message

namespace Turn

/-- What is left of a client that is told. -/
def tell (files : FileTree) (turn : Turn) (client : Client) : Client :=
  match turn.say files client with
  | .ok (_, client) => client
  | .error _ => client

/-- Whether a server that has asked for changes in this form is told of a turn by some messages. -/
def IsTold (options : SyncOptions) : Turn → List Message → Prop
  | .opened document, messages => messages = [.didOpen document]
  | .closed document _, messages => messages = [.didClose document.uri]
  | .changed _ change, messages =>
    (messages = [] ∧ options.change ≠ some .full ∧ options.change ≠ some .incremental) ∨
      messages = [.didChange change [⟨none, change.text⟩]] ∨
      messages = [.didChange change change.edits]
  | _, messages => messages = []

variable {client : Client} {options : SyncOptions}

/-- A server that follows documents is told of every turn. -/
theorem isTold (hfollows : client.Follows options) (files : FileTree) (turn : Turn) :
    ∃ messages, turn.tell files client = { client with outbox := client.outbox ++ messages } ∧
      turn.IsTold options messages := by
  have hsending := hfollows.sending
  cases turn with
  | opened document =>
    refine ⟨[.didOpen document], ?_, rfl⟩
    simp only [tell, say, Client.didOpen, Client.notifyIf, hfollows.check_didOpen, if_true,
      Client.notify, Client.send, hsending]
    rfl
  | closed document isStray =>
    refine ⟨[.didClose document.uri], ?_, rfl⟩
    simp only [tell, say, Client.didClose, Client.notifyIf, hfollows.check_didClose, if_true,
      Client.notify, Client.send, hsending]
    rfl
  | changed id change =>
    simp only [tell, say, Client.didChange]
    cases hevents : client.changeEvents? files change with
    | none =>
      refine ⟨[], by rw [List.append_nil], Or.inl ⟨rfl, ?_⟩⟩
      constructor <;> intro hchange
      · simp [Client.changeEvents?, hfollows.check_didChange hchange] at hevents
      · simp only [Client.changeEvents?, hfollows.check_didChange hchange (by decide), if_true]
          at hevents
        split at hevents <;> cases hevents
    | some events =>
      refine ⟨[.didChange change events], ?_, Or.inr ?_⟩
      · simp only [Client.notify, Client.send, hsending]
        rfl
      · unfold Client.changeEvents? at hevents
        dsimp only at hevents
        split at hevents
        · obtain rfl := Option.some.inj hevents
          exact Or.inl rfl
        · split at hevents
          · obtain rfl := Option.some.inj hevents
            exact Or.inr rfl
          · cases hevents
  | quiet | filed | queued | shadowed =>
    exact ⟨[], by rw [List.append_nil]; rfl, rfl⟩

end Turn

/-- The one client of a workspace is told. -/
theorem Session.getElem?_say {session : Session} {place : Nat} {client : Client}
    (hclients : session.workspace.map Workspace.clients = some [place])
    (hclient : session.clients[place]? = some client) (turn : Turn) :
    (session.say turn).clients[place]? = some (turn.tell session.files client) := by
  rw [say, hclients]
  change (session.clients.modify place _)[place]? = _
  rw [List.getElem?_modify_eq, hclient]
  rfl

/-- The workspace has one client, and since it was of this kind it was told these messages. -/
structure Told (session : Session) (place : Nat) (client : Client) (messages : List Message) :
    Prop where
  clients : session.workspace.map Workspace.clients = some [place]
  heard : session.clients[place]? = some { client with outbox := client.outbox ++ messages }

/-- The workspace has no client yet, and the one at the place was told nothing. -/
structure Untold (session : Session) (place : Nat) (client : Client) : Prop where
  clients : session.workspace.map Workspace.clients = some []
  heard : session.clients[place]? = some client

section Shifts

variable {session after : Session} {turn : Turn} {place : Nat} {client : Client}
  {options : SyncOptions} {messages : List Message}

/-- Putting documents at addresses or taking them from there changes no clients. -/
theorem Session.map_clients_modifyWorkspace (session : Session) {change : Workspace → Workspace}
    (hchange : ∀ workspace, (change workspace).clients = workspace.clients) :
    (session.modifyWorkspace change).workspace.map Workspace.clients =
      session.workspace.map Workspace.clients := by
  rw [Session.modifyWorkspace, Option.map_map]
  exact congrArg (Option.map · session.workspace) (funext hchange)

/-- Whatever a shift does to documents, it then tells all clients, or there is nothing to tell. -/
theorem Shift.clients_cases (hshift : Shift session turn after) : ∃ middle : Session,
    middle.clients = session.clients ∧
    middle.workspace.map Workspace.clients = session.workspace.map Workspace.clients ∧
    (after = middle.say turn ∨ after = middle ∧ ∀ options, turn.IsTold options []) := by
  cases hshift with
  | filed | held | discarded | queued | shadowed =>
    refine ⟨_, ?_, ?_, Or.inr ⟨rfl, fun _ => rfl⟩⟩ <;> rfl
  | changed => refine ⟨_, ?_, ?_, Or.inl rfl⟩ <;> rfl
  | closed | reopened | fresh =>
    refine ⟨_, ?_, ?_, Or.inl rfl⟩
    · rfl
    · exact Session.map_clients_modifyWorkspace _ fun _ => rfl

/-- What the client of a workspace was told is added to. -/
theorem Told.say (htold : Told session place client messages) (hfollows : client.Follows options)
    (turn : Turn) : ∃ more, turn.IsTold options more ∧
      Told (session.say turn) place client (messages ++ more) := by
  obtain ⟨more, htell, hmore⟩ := turn.isTold (hfollows.sent messages) session.files
  refine ⟨more, hmore, ?_, ?_⟩
  · rw [Session.workspace_say]
    exact htold.clients
  · rw [Session.getElem?_say htold.clients htold.heard, htell, List.append_assoc]

/-- The client of the workspace is told of every shift. -/
theorem Shift.told (hshift : Shift session turn after) (hfollows : client.Follows options)
    (htold : Told session place client messages) :
    ∃ more, turn.IsTold options more ∧ Told after place client (messages ++ more) := by
  obtain ⟨middle, hsame, hclients, hafter⟩ := hshift.clients_cases
  have hmiddle : Told middle place client messages :=
    ⟨hclients.trans htold.clients, hsame ▸ htold.heard⟩
  rcases hafter with rfl | ⟨rfl, hnothing⟩
  · exact hmiddle.say hfollows turn
  · exact ⟨[], hnothing options, by rwa [List.append_nil]⟩

/-- Where there is no client, none is told of a shift. -/
theorem Shift.untold (hshift : Shift session turn after)
    (huntold : Untold session place client) : Untold after place client := by
  obtain ⟨middle, hsame, hclients, hafter⟩ := hshift.clients_cases
  have hmiddle : Untold middle place client :=
    ⟨hclients.trans huntold.clients, hsame ▸ huntold.heard⟩
  rcases hafter with rfl | ⟨rfl, -⟩
  · refine ⟨by rw [Session.workspace_say, hmiddle.clients], ?_⟩
    rw [Session.say, hmiddle.clients]
    exact hmiddle.heard
  · exact hmiddle

/-- Where there is no client, none is told of anything. -/
theorem Path.untold {turns : List Turn} (hpath : Path session turns after)
    (huntold : Untold session place client) : Untold after place client := by
  induction hpath with
  | nil => exact huntold
  | cons hshift _ ih => exact ih (hshift.untold huntold)

end Shifts

section Attaching

variable {session : Session} {place : Nat} {client : Client} {options : SyncOptions}

/-- The documents that the workspace has at its addresses, in their order. -/
def Session.shelved (session : Session) : List TextDocument :=
  session.shelf.filterMap fun entry => session.documents[entry.2]?

/-- Tells a client of documents one after the other. -/
def Session.announceAll (session : Session) (place : Nat) (documents : List TextDocument) :
    Session :=
  documents.foldl (fun session document => session.announce [place] document) session

/-- Telling a client of documents changes nothing but the client. -/
theorem announceAll_keeps (session : Session) (place : Nat) (documents : List TextDocument) :
    (session.announceAll place documents).documents = session.documents ∧
    (session.announceAll place documents).workspace = session.workspace ∧
    (session.announceAll place documents).files = session.files := by
  induction documents generalizing session with
  | nil => exact ⟨rfl, rfl, rfl⟩
  | cons document rest ih =>
    obtain ⟨hdocuments, hworkspace, hfiles⟩ := ih (session.announce [place] document)
    obtain ⟨hdocuments', hworkspace', hfiles'⟩ := Session.tell_keeps session [place] fun client =>
      client.didOpen session.files document.toItem
    exact ⟨hdocuments.trans hdocuments', hworkspace.trans hworkspace', hfiles.trans hfiles'⟩

/-- A client hears of documents in their order. -/
theorem heard_announceAll (hfollows : client.Follows options) (documents : List TextDocument)
    {messages : List Message}
    (hheard : session.clients[place]? = some { client with outbox := client.outbox ++ messages }) :
    (session.announceAll place documents).clients[place]? = some { client with
      outbox := client.outbox ++ (messages ++ documents.map Message.didOpen) } := by
  induction documents generalizing session messages with
  | nil => rwa [List.map_nil, List.append_nil]
  | cons document rest ih =>
    have hfirst : (session.announce [place] document).clients[place]? = some { client with
        outbox := client.outbox ++ (messages ++ [.didOpen document]) } := by
      obtain ⟨more, htell, rfl⟩ :=
        (Turn.opened document).isTold (hfollows.sent messages) session.files
      rw [← List.append_assoc, ← htell]
      change (session.clients.modify place _)[place]? = _
      rw [List.getElem?_modify_eq, hheard]
      rfl
    have hrest := ih hfirst
    rwa [List.append_assoc, List.singleton_append] at hrest

/-- Attaching a client tells it of the documents that are open. -/
theorem attach_eq (hhere : session.workspace.isSome = true) (place : Nat) :
    session.attach place = (session.announceAll place session.shelved).modifyWorkspace
      fun workspace => { workspace with clients := workspace.clients ++ [place] } := by
  obtain ⟨workspace, hworkspace⟩ := Option.isSome_iff_exists.mp hhere
  unfold Session.attach Session.shelved Session.shelf
  rw [hworkspace]
  rfl

/-- A client that is attached hears of the documents that are open. -/
theorem Untold.attach (huntold : Untold session place client) (hfollows : client.Follows options) :
    Told (session.attach place) place client (session.shelved.map Message.didOpen) := by
  obtain ⟨workspace, hworkspace, hnone⟩ := Option.map_eq_some_iff.mp huntold.clients
  have hhere : session.workspace.isSome = true := by rw [hworkspace, Option.isSome_some]
  have hheard : session.clients[place]? = some { client with outbox := client.outbox ++ [] } := by
    rw [List.append_nil]
    exact huntold.heard
  rw [attach_eq hhere]
  constructor
  · rw [Session.modifyWorkspace, (announceAll_keeps session place session.shelved).2.1, hworkspace,
      Option.map_some, Option.map_some, hnone]
    rfl
  · exact heard_announceAll hfollows session.shelved hheard

/-- Attaching a client changes neither the documents nor where they are, nor the workspace itself or
the files. -/
theorem attach_keeps (hhere : session.workspace.isSome = true) (place : Nat) :
    (session.attach place).documents = session.documents ∧
    (session.attach place).shelf = session.shelf ∧
    (session.attach place).workspace.map Workspace.number =
      session.workspace.map Workspace.number ∧
    (session.attach place).workspace.map Workspace.encoding =
      session.workspace.map Workspace.encoding ∧
    (session.attach place).files = session.files := by
  obtain ⟨hdocuments, hworkspace, hfiles⟩ := announceAll_keeps session place session.shelved
  rw [attach_eq hhere]
  refine ⟨hdocuments, ?_, ?_, ?_, hfiles⟩
  all_goals
    simp only [Session.shelf, Session.modifyWorkspace, hworkspace, Option.map_map]
    rfl

/-- Attaching a client keeps the workspace tidy. -/
theorem Tidy.attach (htidy : Tidy session) (place : Nat) : Tidy (session.attach place) := by
  obtain ⟨hdocuments, hshelf, hnumber, -⟩ := attach_keeps htidy.here place
  constructor
  · rw [← Option.isSome_map, hnumber, Option.isSome_map]
    exact htidy.here
  · rw [hdocuments, hnumber]
    exact htidy.own
  · rw [hshelf]
    exact htidy.nodup
  · rw [hdocuments, hshelf]
    exact htidy.live

theorem openAt?_attach (hhere : session.workspace.isSome = true) (place : Nat) (uri : String) :
    (session.attach place).openAt? uri = session.openAt? uri := by
  rw [Session.openAt?_eq_lookup, (attach_keeps hhere place).2.1, Session.openAt?_eq_lookup]

end Attaching

namespace Desk

/-- What a client was sent, apart from the messages that it was sent before. -/
def sent (desk : Desk) (place known : Nat) : List Message :=
  ((desk.session.clients[place]?).map fun client => client.outbox.drop known).getD []

/-- A workspace that was just begun is tidy. -/
theorem tidy_begin (files : FileTree) (clients : List Client) (root : String)
    (encoding : PositionEncoding) : Tidy (begin files clients root encoding).session where
  here := rfl
  own _ hmem := by cases hmem
  nodup := List.nodup_nil
  live _ _ hmem := by cases hmem

/-- A workspace that was just begun has no client. -/
theorem untold_begin (files : FileTree) {clients : List Client} (root : String)
    (encoding : PositionEncoding) {place : Nat} {client : Client}
    (hclient : clients[place]? = some client) :
    Untold (begin files clients root encoding).session place client :=
  ⟨rfl, hclient⟩

variable {desk : Desk} {place : Nat} {client : Client} {operations : List Operation}

/-- What a client was sent from then on is what it was told. -/
theorem sent_eq {messages : List Message} (htold : Told desk.session place client messages) :
    desk.sent place client.outbox.length = messages := by
  rw [sent, htold.heard, Option.map_some, Option.getD_some, List.drop_left]

/-- Every run keeps the workspace tidy. -/
theorem tidy_run (htidy : Tidy desk.session) (operations : List Operation) :
    Tidy (desk.performAll operations).session := by
  induction operations generalizing desk with
  | nil => exact htidy
  | cons operation rest ih =>
    refine ih ?_
    obtain ⟨client, rfl⟩ | ⟨turns, hpath, -⟩ := perform_cases htidy operation
    · exact htidy.attach client
    · exact hpath.tidy htidy

/-- A client that is not attached is told nothing. -/
theorem untold_run (htidy : Tidy desk.session) (huntold : Untold desk.session place client)
    (hattach : ∀ operation ∈ operations, operation.isAttach = false) :
    Untold (desk.performAll operations).session place client := by
  induction operations generalizing desk with
  | nil => exact huntold
  | cons operation rest ih =>
    obtain ⟨turns, hpath, -⟩ :=
      path_perform htidy operation (hattach operation List.mem_cons_self)
    exact ih (hpath.tidy htidy) (hpath.untold huntold) fun other hother =>
      hattach other (List.mem_cons_of_mem _ hother)

end Desk

end LanguageClient
