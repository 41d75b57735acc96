import LanguageClient.Workspace.Documents

/-!
# Saving documents

Saving goes through stages, and anything may happen between two of them. First every client is told
and asked for edits, one after the other. Then the edits are queued and committed together with
those that waited already, and the text is written to the file. Only then the document counts as
saved, and the clients are told so.
-/

namespace LanguageClient.Session

/-- Begins to save a document: the clients that are told and asked, in order. -/
def beginSave (session : Session) (id : Nat) : Except DocumentError (List Nat) := do
  let document ← session.find id
  document.ensureOpen
  return session.listeners document

/-- Tells a client that a document is about to be saved. -/
def tellWillSave (session : Session) (client : Nat) (document : TextDocument) : Session :=
  session.tell [client] fun client =>
    client.willSave session.files document.uri document.language

/-- Asks a client for edits before a document is saved; the number of the request, if one was
sent. -/
def askForEdits (session : Session) (id : Nat) (document : TextDocument) : Option Nat × Session :=
  match session.clients[id]? with
  | none => (none, session)
  | some client =>
    match client.askWillSaveEdits? session.files document.uri document.language with
    | some (.ok request, client) => (some request, session.modifyClient id fun _ => client)
    | some (.error _, client) => (none, session.modifyClient id fun _ => client)
    | none => (none, session)

/-- Queues edits one after the other up to the first one that is refused. -/
def pushEdits : Session → (id : Nat) → List TextEdit → Session × Except DocumentError Unit
  | session, _, [] => (session, .ok ())
  | session, id, edit :: rest =>
    match session.modifyDocument id fun document => document.pushTextEdit edit with
    | .ok session => pushEdits session id rest
    | .error error => (session, .error error)

/-- Queues the edits of the clients and commits what waits; the text that is to be written. -/
def applySaveEdits (session : Session) (id : Nat) (edits : List TextEdit) :
    Session × Except DocumentError String :=
  match session.pushEdits id edits with
  | (session, .error error) => (session, .error error)
  | (session, .ok ()) =>
    match session.find id with
    | .error error => (session, .error error)
    | .ok document =>
      if document.hasPendingEdits then
        match session.commit id with
        | .error error => (session, .error error)
        | .ok session => (session, (session.find id).map TextDocument.text)
      else (session, .ok document.text)

/-- Writes the text to the file of the document. -/
def writeText (session : Session) (id : Nat) (text : String) : Except DocumentError Session := do
  let document ← session.find id
  match session.files.write document.path (Utf8.encode text) with
  | .ok files => return { session with files }
  | .error error => throw (.file error)

/-- Takes note that the text was written, and tells the clients. -/
def finishSave (session : Session) (id : Nat) (text : String) : Except DocumentError Session := do
  let document := { ← session.find id with isSaved := true }
  let session := session.setDocument id document
  return session.tell (session.listeners document) fun client =>
    client.didSave session.files document.uri document.language text

end LanguageClient.Session
