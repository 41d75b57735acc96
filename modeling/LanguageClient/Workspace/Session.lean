import LanguageClient.Document.Basic

/-!
# Sessions

A session is everything that the client side keeps: its clients, the documents that were opened so
far, the workspace that maps addresses to the documents that are open, and the files. Clients and
documents are named by their place in the session, which never changes.

Whether a client is told about a document is decided by the client itself; a failure to tell one
client does not keep the others from being told.
-/

namespace LanguageClient

/-- The documents that are open, and the clients that are told about them. -/
structure Workspace where
  /-- What tells workspaces of one session apart. -/
  number : Nat
  root : String
  encoding : PositionEncoding
  /-- The document that is open at each address, ascending by address. -/
  openDocuments : List (String × Nat)
  /-- The clients that are told about documents, in the order in which they were attached. -/
  clients : List Nat

/-- The state of the client side. -/
structure Session where
  files : FileTree
  clients : List Client
  documents : List TextDocument
  workspace : Option Workspace
  /-- The number of the next workspace. -/
  nextWorkspace : Nat

namespace Session

/-- A session in which nothing has happened yet. -/
def start (files : FileTree) : Session := ⟨files, [], [], none, 0⟩

/-- Adds a client, and tells its place. -/
def addClient (session : Session) (client : Client) : Nat × Session :=
  (session.clients.length, { session with clients := session.clients ++ [client] })

/-- Changes the client at a place. -/
def modifyClient (session : Session) (id : Nat) (change : Client → Client) : Session :=
  { session with clients := session.clients.modify id change }

/-- Puts a document in place of the one at a place. -/
def setDocument (session : Session) (id : Nat) (document : TextDocument) : Session :=
  { session with documents := session.documents.set id document }

/-- Changes the workspace. -/
def modifyWorkspace (session : Session) (change : Workspace → Workspace) : Session :=
  { session with workspace := session.workspace.map change }

/-- The document at a place; there is none at a place that was never taken. -/
def find (session : Session) (id : Nat) : Except DocumentError TextDocument :=
  match session.documents[id]? with
  | some document => .ok document
  | none => .error (.closed "")

/-- Changes the document at a place, unless the change is refused. -/
def modifyDocument (session : Session) (id : Nat)
    (change : TextDocument → Except DocumentError TextDocument) :
    Except DocumentError Session := do
  return session.setDocument id (← change (← session.find id))

/-- Says something to clients; what cannot be said to one of them is dropped. -/
def tell (session : Session) (ids : List Nat)
    (say : Client → Except ClientError (Bool × Client)) : Session :=
  ids.foldl (fun session id => session.modifyClient id fun client =>
    match say client with
    | .ok (_, client) => client
    | .error _ => client) session

/-- The workspace that a document was opened through, as long as it exists. -/
def workspaceOf? (session : Session) (document : TextDocument) : Option Workspace :=
  session.workspace.filter fun workspace => workspace.number == document.workspace

/-- The clients that are told about a document. -/
def listeners (session : Session) (document : TextDocument) : List Nat :=
  ((session.workspaceOf? document).map Workspace.clients).getD []

/-- Tells clients that a document is open. -/
def announce (session : Session) (ids : List Nat) (document : TextDocument) : Session :=
  session.tell ids fun client => client.didOpen session.files document.toItem

/-- Tells the clients of a document that it is closed. -/
def announceClosed (session : Session) (document : TextDocument) : Session :=
  session.tell (session.listeners document) fun client =>
    client.didClose session.files document.uri document.language

end Session

end LanguageClient
