import LanguageClient.Client.Requests
import LanguageClient.Protocol.Notice

/-!
# Telling a server about documents

A server is told about a document only if it asked for that kind of notice for that document. Each
operation tells whether it did, and fails only if nothing can be sent.
-/

namespace LanguageClient

/-- A change of a document, in every form in which a server may want it. -/
structure DocumentChange where
  uri : String
  language : String
  version : Int32
  /-- The whole text after the change. -/
  text : String
  /-- The replaced ranges, in the order in which they are to be applied. -/
  edits : List ChangeEvent

namespace Client

/-- Sends a notice if the server asked for it. -/
def notifyIf (client : Client) (isWanted : Bool) (method : String) (params : Json) :
    Except ClientError (Bool × Client) :=
  if isWanted then (client.notify method (some params)).map (true, ·) else .ok (false, client)

/-- Tells that a document is open now. -/
def didOpen (files : FileTree) (client : Client) (item : DocumentItem) :
    Except ClientError (Bool × Client) :=
  let method := "textDocument/didOpen"
  client.notifyIf (client.check files method (.forDocument item.uri item.language)) method
    (encode (DidOpenParams.mk item))

/-- The form in which a server wants a change, if it wants it at all: the whole text if it asked for
that, else the ranges. -/
def changeEvents? (files : FileTree) (client : Client) (change : DocumentChange) :
    Option (List ChangeEvent) :=
  let method := "textDocument/didChange"
  let request := FeatureRequest.forDocument change.uri change.language
  if client.check files method (request.add (.syncKind .full)) then some [⟨none, change.text⟩]
  else if client.check files method (request.add (.syncKind .incremental)) then some change.edits
  else none

/-- Tells that a document has changed. -/
def didChange (files : FileTree) (client : Client) (change : DocumentChange) :
    Except ClientError (Bool × Client) :=
  match client.changeEvents? files change with
  | none => .ok (false, client)
  | some events =>
    let params : DidChangeParams := ⟨⟨change.uri, change.version⟩, events⟩
    (client.notify "textDocument/didChange" (some (encode params))).map (true, ·)

/-- Tells that a document is closed now. -/
def didClose (files : FileTree) (client : Client) (uri language : String) :
    Except ClientError (Bool × Client) :=
  let method := "textDocument/didClose"
  client.notifyIf (client.check files method (.forDocument uri language)) method
    (encode (DidCloseParams.mk ⟨uri⟩))

/-- What is said before a document is saved. -/
def willSaveParams (uri : String) : Json :=
  encode (WillSaveParams.mk ⟨uri⟩ .manual)

/-- Tells that a document is about to be saved. -/
def willSave (files : FileTree) (client : Client) (uri language : String) :
    Except ClientError (Bool × Client) :=
  let method := "textDocument/willSave"
  client.notifyIf (client.check files method (.forDocument uri language)) method
    (willSaveParams uri)

/-- The method that asks for edits before a document is saved. -/
def willSaveWaitUntilMethod : String := "textDocument/willSaveWaitUntil"

/-- Asks for edits before a document is saved, if the server offers them. -/
def askWillSaveEdits? (files : FileTree) (client : Client) (uri language : String) :
    Option (Except ClientError Nat × Client) :=
  if client.check files willSaveWaitUntilMethod (.forDocument uri language) then
    some (client.ask willSaveWaitUntilMethod (some (willSaveParams uri)))
  else none

/-- The text that goes along when a document has been saved, if the server wants to hear of it. -/
def savedText? (files : FileTree) (client : Client) (uri language text : String) :
    Option (Option String) :=
  let method := "textDocument/didSave"
  let request := FeatureRequest.forDocument uri language
  if client.check files method (request.add (.includeText true)) then some (some text)
  else if client.check files method (request.add (.includeText false)) then some none
  else none

/-- Tells that a document has been saved. -/
def didSave (files : FileTree) (client : Client) (uri language text : String) :
    Except ClientError (Bool × Client) :=
  match client.savedText? files uri language text with
  | none => .ok (false, client)
  | some text =>
    let params : DidSaveParams := ⟨⟨uri⟩, text⟩
    (client.notify "textDocument/didSave" (some (encode params))).map (true, ·)

end Client

end LanguageClient
