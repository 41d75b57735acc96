import LanguageClient.Client.Requests
import LanguageClient.Protocol.Notice

/-!
# Messages from the server

Responses decide outcomes. Every request of the server is answered, with an error if its method is
not known or its parameters cannot be read. Notifications go to their handler, and those that carry
a message to the user are logged.
-/

namespace LanguageClient

/-- What a message from the server causes beside a change of the client. -/
inductive ClientEvent
  /-- A handler is called with the parameters of a notification. -/
  | handled (method : String) (params : Json)
  /-- A message to the user is logged. -/
  | logged (severity : Severity) (text : String)

namespace Client

/-- The error for parameters that cannot be read. -/
def unreadableParams : ResponseError :=
  .plain ResponseError.invalidParams FeatureError.unreadable

/-- Adds registrations one after the other, skipping those that are refused, and collects the
wordings of the refusals. -/
def addRegistrations (files : FileTree) :
    Registry → List Registration → Registry × List String
  | registry, [] => (registry, [])
  | registry, registration :: rest =>
    match registry.add files registration with
    | .ok registry => addRegistrations files registry rest
    | .error error =>
      let (registry, refusals) := addRegistrations files registry rest
      (registry, error.message :: refusals)

/-- Answers a request to register features. -/
def registerFeatures (files : FileTree) (client : Client) (params : Json) :
    Except ResponseError Json × Client :=
  match (decode? params : Option RegistrationParams) with
  | none => (.error unreadableParams, client)
  | some params =>
    let (registry, refusals) := addRegistrations files client.registry params.registrations
    let client := { client with registry }
    if refusals.isEmpty then (.ok .null, client)
    else (.error (.plain ResponseError.invalidParams ("; ".intercalate refusals)), client)

/-- Answers a request to take features back. -/
def unregisterFeatures (client : Client) (params : Json) : Except ResponseError Json × Client :=
  match (decode? params : Option UnregistrationParams) with
  | none => (.error unreadableParams, client)
  | some params =>
    let registry := params.unregistrations.foldl (fun registry unregistration =>
      (registry.remove unregistration).1) client.registry
    (.ok .null, { client with registry })

/-- The parts of a dotted name. -/
def dottedParts : List Char → List (List Char)
  | [] => [[]]
  | c :: rest =>
    if c == '.' then [] :: dottedParts rest
    else
      match dottedParts rest with
      | [] => [[c]]
      | part :: parts => (c :: part) :: parts

/-- The part of the settings under a dotted name; an unknown part is an empty object. -/
def settingsSection (settings : Json) (name : String) : Json :=
  let parts := (dottedParts name.toList).map String.ofList
  (parts.foldlM (fun (value : Json) part => value.get? part) settings).getD (.obj [])

/-- Answers a request for settings with one value for each item. -/
def serveSettings (client : Client) (params : Json) : Except ResponseError Json :=
  match (decode? params : Option ConfigurationParams) with
  | none => .error unreadableParams
  | some params => .ok (.arr (params.items.map fun item =>
      match item.sectionName with
      | none => client.settings
      | some name => settingsSection client.settings name))

/-- What a request of the server is answered with. -/
def answer (files : FileTree) (client : Client) (method : String) (params : Json) :
    Except ResponseError Json × Client :=
  if method == "client/registerCapability" then client.registerFeatures files params
  else if method == "client/unregisterCapability" then client.unregisterFeatures params
  else if method == "workspace/configuration" then (client.serveSettings params, client)
  else if method == "workspace/workspaceFolders" then (.ok (encode client.folders), client)
  else if method == "window/workDoneProgress/create" then (.ok .null, client)
  else (.error (.plain ResponseError.methodNotFound ("Method not found: " ++ method)), client)

/-- Takes a request of the server and sends the answer. -/
def takeRequest (files : FileTree) (client : Client) (request : Request) : Client :=
  let (result, client) := client.answer files request.method (request.params.getD .null)
  let response := match result with
    | .ok result => Response.success request.id result
    | .error error => Response.failure request.id error
  client.trySend (.response response)

/-- The methods whose notifications carry a message to the user. -/
def userMessageMethods : List String := ["window/logMessage", "window/showMessage"]

/-- What a notification of the server causes. -/
def takeNotification (client : Client) (notification : Notification) : List ClientEvent :=
  let params := notification.params.getD .null
  let handled :=
    if client.handled.contains notification.method then [.handled notification.method params]
    else []
  let logged :=
    if userMessageMethods.contains notification.method then
      match (decode? params : Option UserMessage) with
      | some message => [.logged message.severity ("LSP " ++ client.name ++ ": " ++ message.text)]
      | none => []
    else []
  handled ++ logged

/-- Takes a message from the server. -/
def receive (files : FileTree) (client : Client) : Message → Client × List ClientEvent
  | .response response => (client.takeResponse response, [])
  | .request request => (client.takeRequest files request, [])
  | .notification notification => (client, client.takeNotification notification)

end Client

end LanguageClient
