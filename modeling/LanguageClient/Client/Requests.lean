import LanguageClient.Client.Basic

/-!
# Requests of a client

A request is sent under a fresh number. Its outcome is decided by the first answer with that number,
by the loss of the connection or by shutting down. Before that it can be given up, for instance
because its caller has waited too long, and the server is told so.
-/

namespace LanguageClient.Client

/-- The failure of whatever needs a connection that went away. -/
def terminatedError (client : Client) : ClientError :=
  .terminated client.name

/-- Takes a fresh number for a request. -/
def takeNumber (client : Client) : Nat × Client :=
  (client.nextId, { client with nextId := client.nextId + 1 })

/-- Notes that the answer to a request is outstanding, unless the connection went away. -/
def note (client : Client) (id : Nat) : Except ClientError Client :=
  if client.isTerminated then .error client.terminatedError
  else .ok { client with outstanding := client.outstanding ++ [id] }

/-- Hands a request over for writing. -/
def sendRequest (client : Client) (id : Nat) (method : String) (params : Option Json) :
    Except ClientError Client :=
  client.send (.request ⟨protocolVersion, .number (UInt64.ofNat id), method, params⟩)

/-- No longer counts a request as outstanding. -/
def withdraw (client : Client) (id : Nat) : Client :=
  { client with outstanding := client.outstanding.filter (· != id) }

/-- Notes that the answer to a request is outstanding, and sends it. On a connection that went away
it fails at once; its number is used up in any case. -/
def ask (client : Client) (method : String) (params : Option Json) :
    Except ClientError Nat × Client :=
  let (id, client) := client.takeNumber
  match client.note id with
  | .error error => (.error error, client)
  | .ok client =>
    match client.sendRequest id method params with
    | .ok client => (.ok id, client)
    | .error error => (.error error, client.withdraw id)

/-- Takes the outcome of a request, if it is decided. -/
def takeOutcome? (client : Client) (id : Nat) : Option (Response × Client) :=
  (client.outcomes.lookup id).map fun response =>
    (response, { client with outcomes := client.outcomes.filter fun entry => entry.1 != id })

/-- The method by which the server is told that a request was given up. -/
def cancelMethod : String := "$/cancelRequest"

/-- Tells the server that a request was given up. -/
def tellCancelled (client : Client) (id : Nat) : Client :=
  let params := Json.object [("id", .int id)]
  client.trySend (.notification ⟨protocolVersion, cancelMethod, some params⟩)

/-- Gives up a request and tells the server so. -/
def cancelRequest (client : Client) (id : Nat) : Client :=
  (client.withdraw id).tellCancelled id

/-- Whether a request was given up: it is not outstanding, and it has no outcome. -/
def isGivenUp (client : Client) (id : Nat) : Bool :=
  !client.outstanding.contains id && (client.outcomes.lookup id).isNone

/-- What a response means for the caller; the code for a lost connection is taken as such. -/
def resultOf (client : Client) (response : Response) : Except ClientError Json :=
  match response.outcome with
  | .ok result => .ok result
  | .error error =>
    if error.code == ResponseError.serverTerminated then .error client.terminatedError
    else .error (.ofResponse error)

/-- Decides the outcome of a request that is outstanding. -/
def decide (client : Client) (id : Nat) (response : Response) : Client :=
  { client with
    outstanding := client.outstanding.filter (· != id)
    outcomes := client.outcomes ++ [(id, response)] }

/-- The number that the id of a response names; some servers give numbers back as texts. -/
def answeredNumber? : RequestId → Option Nat
  | .number value => some value.toNat
  | .text value => (Numeral.read 64 value).toOption

/-- Takes a response; one that answers no outstanding request changes nothing. -/
def takeResponse (client : Client) (response : Response) : Client :=
  match response.id.bind answeredNumber? with
  | some id => if client.outstanding.contains id then client.decide id response else client
  | none => client

/-- Fails every outstanding request with the same error. -/
def failOutstanding (client : Client) (error : ResponseError) : Client :=
  { client with
    outstanding := []
    outcomes := client.outcomes ++ client.outstanding.map fun id =>
      (id, .failure (.number (UInt64.ofNat id)) error) }

/-- What requests fail with when the connection goes away. -/
def terminationFailure (client : Client) : ResponseError :=
  .plain ResponseError.serverTerminated
    (client.name ++ " language server terminated unexpectedly")

/-- Takes note that the connection went away: every request and every waiting call fails. -/
def terminate (client : Client) : Client :=
  let client := { client with isTerminated := true }.failOutstanding client.terminationFailure
  { client with registry := client.registry.abandon }

end LanguageClient.Client
