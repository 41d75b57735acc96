import LanguageClient.Client.Error
import LanguageClient.Feature.Registry
import LanguageClient.Protocol.Handshake
import LanguageClient.Timeouts

/-!
# Clients

A client is the near end of a connection to one server: the messages that wait to be written, the
requests whose answers are outstanding, the registry of what the server grants, and what both sides
told each other in the handshake.

A request is outstanding from the moment it is sent until its outcome is decided, by an answer or by
the loss of the connection, or until it is given up. A decided outcome stays until the caller takes
it.
-/

namespace LanguageClient

/-- The near end of a connection to a server. -/
structure Client where
  name : String
  /-- The unit of positions that the client asks for. -/
  encoding : PositionEncoding
  /-- Options for the handshake, which the server understands. -/
  handshakeOptions : Option Json
  /-- The process that the client runs in. -/
  processId : UInt32
  timeouts : Timeouts
  /-- Whether messages can still be handed over for writing. -/
  isSending : Bool
  /-- Messages that wait to be written, in order. -/
  outbox : List Message
  /-- The number of the next request. Requests are sent with it as a word of 64 bits. -/
  nextId : Nat
  /-- The ids of the requests that are outstanding. -/
  outstanding : List Nat
  /-- Outcomes of requests that their callers have not taken yet. -/
  outcomes : List (Nat × Response)
  /-- The methods of the notifications that are handled. -/
  handled : List String
  registry : Registry
  serverInfo : Option ProgramInfo
  folders : List WorkspaceFolder
  /-- The settings that are served to the server. -/
  settings : Json
  /-- Whether the client was asked to shut the server down. -/
  isShutdown : Bool
  /-- Whether the connection went away. -/
  isTerminated : Bool

namespace Client

/-- A client that was just connected. -/
def connect (name : String) (encoding : PositionEncoding) (timeouts : Timeouts)
    (processId : UInt32) (handshakeOptions : Option Json) : Client where
  name := name
  encoding := encoding
  handshakeOptions := handshakeOptions
  processId := processId
  timeouts := timeouts
  isSending := true
  outbox := []
  nextId := 1
  outstanding := []
  outcomes := []
  handled := []
  registry := .empty
  serverInfo := none
  folders := []
  settings := .obj []
  isShutdown := false
  isTerminated := false

/-- Handles notifications of a method from now on. -/
def handle (client : Client) (method : String) : Client :=
  { client with handled := method :: client.handled }

/-- Hands a message over for writing. -/
def send (client : Client) (message : Message) : Except ClientError Client :=
  if client.isSending then .ok { client with outbox := client.outbox ++ [message] }
  else .error .notConnected

/-- Sends a notification. -/
def notify (client : Client) (method : String) (params : Option Json) :
    Except ClientError Client :=
  client.send (.notification ⟨protocolVersion, method, params⟩)

/-- Sends what can be sent; a message that cannot is dropped. -/
def trySend (client : Client) (message : Message) : Client :=
  match client.send message with
  | .ok client => client
  | .error _ => client

/-- Whether a feature is granted in the way a request asks for. -/
def check (files : FileTree) (client : Client) (method : String) (request : FeatureRequest) :
    Bool :=
  client.registry.check files method request

/-- The unit of positions: what the server named, or else what the client asked for. -/
def positionEncoding (client : Client) : PositionEncoding :=
  ((client.registry.capabilities.bind ServerCapabilities.positionEncoding)).getD client.encoding

/-- Whether the connection is in use. -/
def isRunning (client : Client) : Bool :=
  !client.isTerminated && !client.isShutdown

end Client

end LanguageClient
