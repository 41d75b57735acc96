import LanguageClient.Protocol.Frame

/-!
# Scripted servers

A scripted server answers requests by their method, and sends further messages after it has
received a message of some method. What it does depends on nothing else.
-/

namespace LanguageClient

/-- What a server does with the messages it receives. -/
structure ScriptedServer where
  /-- The members of the answer to a request of a method. -/
  replies : List (String × Json)
  /-- The members of the answer to requests of other methods, if they are answered. -/
  otherReply : Option Json
  /-- What is sent after a message of a method. -/
  after : List (String × List Json)

namespace ScriptedServer

/-- The answer to a request: the given members beside the version and the id. -/
def answer (id : RequestId) (reply : Json) : Json :=
  let members := match reply with
    | .obj fields => fields
    | _ => []
  .object (("jsonrpc", .str protocolVersion) :: ("id", encode id) :: members)

/-- What the server sends after it has received a message. -/
def react (server : ScriptedServer) : Message → List Json
  | .request request =>
    let reply := server.replies.lookup request.method <|> server.otherReply
    (reply.map (answer request.id)).toList ++ (server.after.lookup request.method).getD []
  | .notification notification => (server.after.lookup notification.method).getD []
  | .response _ => []

end ScriptedServer

/-- The way between a client and its server. -/
structure Link where
  server : ScriptedServer
  /-- Bytes from the server that the client has not read. -/
  incoming : List UInt8
  /-- Whether the client reads what arrives. -/
  isReading : Bool
  /-- Whether the server keeps its side open. -/
  isOpen : Bool
  /-- Whether the client has closed its side. -/
  isLeft : Bool

namespace Link

/-- A way on which nothing has been sent. -/
def fresh (server : ScriptedServer) : Link := ⟨server, [], true, true, false⟩

/-- Sends bytes to the client. -/
def sendBytes (link : Link) (bytes : List UInt8) : Link :=
  if link.isOpen then { link with incoming := link.incoming ++ bytes } else link

/-- Sends a message to the client. -/
def sendMessage (link : Link) (message : Json) : Link :=
  link.sendBytes (Frame.write message.print)

/-- Lets the server receive a message. -/
def deliver (link : Link) (message : Message) : Link :=
  (link.server.react message).foldl sendMessage link

/-- Closes the side of the server. -/
def close (link : Link) : Link := { link with isOpen := false }

end Link

end LanguageClient
