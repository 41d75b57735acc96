import LanguageClient.Client.Requests
import LanguageClient.Uri

/-!
# The beginning and the end of a connection

The handshake introduces both sides to each other and opens the registry. Shutting down asks the
server to end, stops sending, and fails whatever is still outstanding.
-/

namespace LanguageClient

namespace WorkspaceFolder

/-- The folder at a path; the root of all folders is named by its address. -/
def ofPath (home path : String) : WorkspaceFolder :=
  let uri := Uri.ofPath home path
  ⟨uri, (Path.fileName? path).getD uri⟩

end WorkspaceFolder

namespace Client

/-- The name and the version by which the client introduces itself. -/
def introduction : ProgramInfo := ⟨"lsp-conductor", some "0.3.0"⟩

/-- What the client says in the handshake. -/
def handshakeParams (client : Client) (folder : WorkspaceFolder) : HandshakeParams where
  processId := some client.processId
  rootUri := some folder.uri
  capabilities := .announced client.encoding
  clientInfo := some introduction
  initializationOptions := client.handshakeOptions
  workspaceFolders := some [folder]

/-- The method of the handshake. -/
def handshakeMethod : String := "initialize"

/-- Begins the handshake for the workspace at a path. -/
def beginHandshake (home : String) (client : Client) (root : String) :
    Except ClientError Nat × Client :=
  let folder := WorkspaceFolder.ofPath home root
  let client := { client with folders := [folder] }
  client.ask handshakeMethod (some (encode (client.handshakeParams folder)))

/-- Takes the answer of the server: its grants open the registry, and it is told that the handshake
is complete. -/
def finishHandshake (files : FileTree) (client : Client) (result : HandshakeResult) :
    Except ClientError HandshakeResult × Client :=
  let client := { client with
    registry := client.registry.setCapabilities files result.capabilities
    serverInfo := result.serverInfo }
  match client.notify "initialized" (some (.obj [])) with
  | .ok client => (.ok result, client)
  | .error error => (.error error, client)

/-- The method that asks the server to end. -/
def shutdownMethod : String := "shutdown"

/-- Begins to shut the server down; only the first call does anything. -/
def beginShutdown (client : Client) : Option (Except ClientError Nat × Client) :=
  if client.isShutdown then none
  else some ({ client with isShutdown := true }.ask shutdownMethod none)

/-- Tells the server to exit, after it has agreed to shut down. -/
def sendExit (client : Client) : Client :=
  client.trySend (.notification ⟨protocolVersion, "exit", none⟩)

/-- Stops sending. -/
def stopSending (client : Client) : Client :=
  { client with isSending := false }

/-- What requests fail with that are outstanding at the end of shutting down. -/
def shutdownFailure : ResponseError :=
  .plain ResponseError.requestCancelled "Server shutdown"

/-- Fails whatever is still outstanding after shutting down. -/
def failRemaining (client : Client) : Client :=
  let client := client.failOutstanding shutdownFailure
  { client with registry := client.registry.abandon }

/-- Stops sending and fails whatever is still outstanding. -/
def finishShutdown (client : Client) : Client :=
  client.stopSending.failRemaining

end Client

end LanguageClient
