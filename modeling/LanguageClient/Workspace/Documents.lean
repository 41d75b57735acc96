import LanguageClient.LanguageId
import LanguageClient.Workspace.Session

/-!
# Opening and closing documents

A document is opened once for each address and shared by everything that opens it again while it is
open. The last hold that is given back takes the document out of the workspace; closing the
workspace gives back all holds at once. A document that was closed can be opened again with its text
and version, unless a newer copy is open at its address: then only the hold is taken.
-/

namespace LanguageClient

namespace Workspace

/-- The language of documents that tell none. -/
def fallbackLanguage : String := "plaintext"

/-- The path of a target, which is an address of a file or a path. -/
def resolve (workspace : Workspace) (target : String) : String :=
  let path := if Uri.isFile target then Uri.toPath target else target
  if Path.isAbsolute path then path else Path.join workspace.root path

/-- Takes a document out, if it is the one that is open at its address. -/
def dropDocument (workspace : Workspace) (uri : String) (id : Nat) : Workspace :=
  { workspace with
    openDocuments := workspace.openDocuments.filter fun entry => entry.1 != uri || entry.2 != id }

/-- Puts a document in. -/
def putDocument (workspace : Workspace) (uri : String) (id : Nat) : Workspace :=
  { workspace with openDocuments := insertField uri id workspace.openDocuments }

end Workspace

namespace Session

/-- Begins a workspace; the one before it is gone. -/
def beginWorkspace (session : Session) (root : String) (encoding : PositionEncoding) : Session :=
  { session with
    workspace := some ⟨session.nextWorkspace, root, encoding, [], []⟩
    nextWorkspace := session.nextWorkspace + 1 }

/-- The place of the document that is open at an address. -/
def openAt? (session : Session) (uri : String) : Option Nat :=
  session.workspace.bind fun workspace => workspace.openDocuments.lookup uri

/-- Takes one more hold on an open document. -/
def acquire (session : Session) (id : Nat) : Except DocumentError Session :=
  session.modifyDocument id TextDocument.acquire

/-- What follows when a document was closed: the workspace no longer has it, and the clients are
told. -/
def afterClose (session : Session) (id : Nat) (document : TextDocument) : Session :=
  match session.workspaceOf? document with
  | none => session
  | some _ =>
    (session.modifyWorkspace (·.dropDocument document.uri id)).announceClosed document

/-- Gives one hold back; the last one closes the document. -/
def release (session : Session) (id : Nat) : Except DocumentError Session := do
  let (document, isLast) ← (← session.find id).release
  let session := session.setDocument id document
  return if isLast then session.afterClose id document else session

/-- Gives one hold back, if there is one. -/
def releaseIfOpen (session : Session) (id : Nat) : Session :=
  match session.release id with
  | .ok session => session
  | .error _ => session

/-- Gives all holds back. -/
def releaseAll (session : Session) (id : Nat) : Session :=
  match session.documents[id]? with
  | none => session
  | some document =>
    let (document, wasOpen) := document.releaseAll
    if wasOpen then (session.setDocument id document).afterClose id document else session

/-- Whether an open document stands at an address. -/
def isLive (session : Session) (uri : String) : Bool :=
  match session.openAt? uri with
  | none => false
  | some id => (session.documents[id]?).any fun document => !document.isClosed

/-- Takes a hold, also on a document that was closed. -/
def reopen (session : Session) (id : Nat) : Except DocumentError Session := do
  let (document, wasClosed) := (← session.find id).reopen
  let before := session
  let session := session.setDocument id document
  if !wasClosed || (session.workspaceOf? document).isNone || before.isLive document.uri then
    return session
  else
    let session := session.modifyWorkspace (·.putDocument document.uri id)
    return session.announce (session.listeners document) document

/-- Reads a document that is not open yet. -/
def openFresh (session : Session) (workspace : Workspace) (path uri : String)
    (language : Option String) : Except DocumentError (Nat × Session) :=
  match session.files.readText path with
  | .error .notFound => .error (.notFound path)
  | .error error => .error (.file error)
  | .ok text =>
    let language := (language <|> languageOfPath? path).getD Workspace.fallbackLanguage
    let document := TextDocument.opened workspace.number path uri language text workspace.encoding
    let id := session.documents.length
    let session := { session with documents := session.documents ++ [document] }
    let session := session.modifyWorkspace (·.putDocument uri id)
    .ok (id, session.announce workspace.clients document)

/-- Opens a target: takes a hold on the document that is open at its address, or reads it. -/
def openDocument (session : Session) (target : String) (language : Option String) :
    Except DocumentError (Nat × Session) :=
  match session.workspace with
  | none => .error (.notFound target)
  | some workspace =>
    let path := workspace.resolve target
    let uri := Uri.ofPath session.files.homePath path
    match workspace.openDocuments.lookup uri with
    | none => session.openFresh workspace path uri language
    | some id =>
      match session.acquire id with
      | .ok session => .ok (id, session)
      | .error _ =>
        (session.modifyWorkspace (·.dropDocument uri id)).openFresh workspace path uri language

/-- Applies the queued edits of a document and tells its clients. -/
def commit (session : Session) (id : Nat) : Except DocumentError Session := do
  let (document, change) ← (← session.find id).commit
  let session := session.setDocument id document
  return session.tell (session.listeners document) fun client =>
    client.didChange session.files change

/-- Closes every document of the workspace. -/
def closeWorkspace (session : Session) : Session :=
  match session.workspace with
  | none => session
  | some workspace =>
    let session := session.modifyWorkspace fun workspace => { workspace with openDocuments := [] }
    workspace.openDocuments.foldl (fun session entry => session.releaseAll entry.2) session

/-- Closes the workspace and gives it up. -/
def endWorkspace (session : Session) : Session :=
  { session.closeWorkspace with workspace := none }

/-- Tells a client about every open document, and about all later ones. -/
def attach (session : Session) (client : Nat) : Session :=
  match session.workspace with
  | none => session
  | some workspace =>
    let documents := workspace.openDocuments.filterMap fun entry => session.documents[entry.2]?
    let session := documents.foldl (fun session document => session.announce [client] document)
      session
    session.modifyWorkspace fun workspace =>
      { workspace with clients := workspace.clients ++ [client] }

/-- Whether the client at a place has a name. -/
def hasName (session : Session) (name : String) (id : Nat) : Bool :=
  session.clients[id]?.any fun client => client.name == name

/-- The names of the clients that are told about documents. -/
def listenerNames (session : Session) : List String :=
  ((session.workspace.map Workspace.clients).getD []).filterMap fun id =>
    (session.clients[id]?).map Client.name

/-- Stops telling the first client of a name; tells its place. -/
def detach (session : Session) (name : String) : Option Nat × Session :=
  match session.workspace with
  | none => (none, session)
  | some workspace =>
    (workspace.clients.find? (session.hasName name), session.modifyWorkspace fun workspace =>
      { workspace with clients := workspace.clients.eraseP (session.hasName name) })

end Session

end LanguageClient
