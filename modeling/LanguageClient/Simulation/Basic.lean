import LanguageClient.Client.Incoming
import LanguageClient.Client.Lifecycle
import LanguageClient.Simulation.Server
import LanguageClient.Workspace.Locations
import LanguageClient.Workspace.Saving

/-!
# Simulated time and simulated servers

A simulation is a session whose clients talk to scripted servers, with a clock that only moves when
it is told to. Operations that wait for an answer or for a feature are activities: each one holds
what it waits for and what it does next. What can be seen from outside is collected: messages at the
servers, calls of handlers, logged lines, and the outcomes of activities.
-/

namespace LanguageClient

/-- The registry in which a feature is waited for. -/
inductive RegistryPlace
  /-- A registry that belongs to no client. -/
  | free
  | ofClient (client : Nat)

/-- A request whose outcome is waited for. -/
structure Call where
  client : Nat
  /-- The number of the request. -/
  id : Nat
  method : String
  /-- The time at which the caller gives up, in nanoseconds; absent, there is none. -/
  deadline : Option Nat

/-- The form that the result of a request has to have. -/
inductive AnswerForm
  | anything
  | nothing
  | text
  | location

namespace AnswerForm

/-- The result, if it has the form. -/
def read? (form : AnswerForm) (result : Json) : Option Json :=
  match form with
  | .anything => some result
  | .nothing => if result.isNull then some .null else none
  | .text => (decode? result : Option String).map encode
  | .location => (decode? result : Option Location).map encode

end AnswerForm

/-- An operation that is under way. -/
inductive Activity
  /-- Waits for a feature. The limit is the time at which it gives up, and how long that is. A wait
  that was begun through a client fails as operations of clients fail. -/
  | feature (place : RegistryPlace) (waiter : Nat) (method : String)
      (limit : Option (Nat × Duration)) (throughClient : Bool)
  /-- Waits for the answer to a request. -/
  | request (call : Call) (form : AnswerForm)
  /-- Waits for the answer to the handshake. -/
  | handshake (call : Call)
  /-- Waits for edits before a document is saved. -/
  | willSave (call : Call)
  /-- Waits for a server to agree to shut down, but not beyond the end of the grace period. -/
  | shutdown (call : Call) (graceEnd : Nat)
  /-- Saves a document: waits for the edits of one client, and then asks the others. -/
  | save (document : Nat) (call : Call) (others : List Nat) (edits : List TextEdit)

/-- What an activity ended in. -/
inductive Outcome
  | feature (result : Except FeatureError Unit)
  | client (result : Except ClientError Json)
  | document (result : Except DocumentError Unit)

/-- What a server sees. -/
inductive Sighting
  | message (content : Json)
  /-- The client has closed its side. -/
  | goodbye

/-- A session with scripted servers and a clock. -/
structure Simulation where
  /-- The time, in nanoseconds. -/
  clock : Nat
  session : Session
  /-- The registry that belongs to no client. -/
  registry : Registry
  /-- The way to the server of each client, by the client's place. -/
  links : List Link
  /-- The clients that are held from outside. -/
  held : List Nat
  /-- What is under way. -/
  activities : List (Nat × Activity)
  /-- The number of the next activity. -/
  nextActivity : Nat
  /-- What activities ended in. -/
  outcomes : List (Nat × Outcome)
  /-- What the servers saw, with the client from which it came. -/
  sightings : List (Nat × Sighting)
  /-- What the clients were caused to do. -/
  events : List (Nat × ClientEvent)

namespace Simulation

/-- A simulation in which nothing has happened yet. -/
def start (files : FileTree) : Simulation where
  clock := 0
  session := .start files
  registry := .empty
  links := []
  held := []
  activities := []
  nextActivity := 0
  outcomes := []
  sightings := []
  events := []

/-- Connects a client to a server; the client is held from outside. -/
def connect (sim : Simulation) (client : Client) (server : ScriptedServer) : Nat × Simulation :=
  let (id, session) := sim.session.addClient client
  (id, { sim with session, links := sim.links ++ [.fresh server], held := id :: sim.held })

/-- Changes the client at a place. -/
def modifyClient (sim : Simulation) (id : Nat) (change : Client → Client) : Simulation :=
  { sim with session := sim.session.modifyClient id change }

/-- Changes the way to the server of a client. -/
def modifyLink (sim : Simulation) (id : Nat) (change : Link → Link) : Simulation :=
  { sim with links := sim.links.modify id change }

/-- The registry at a place. -/
def registryAt? (sim : Simulation) : RegistryPlace → Option Registry
  | .free => some sim.registry
  | .ofClient id => (sim.session.clients[id]?).map Client.registry

/-- Puts a registry at a place. -/
def setRegistry (sim : Simulation) (place : RegistryPlace) (registry : Registry) : Simulation :=
  match place with
  | .free => { sim with registry }
  | .ofClient id => sim.modifyClient id fun client => { client with registry }

/-- Lets go of a client that is held from outside. -/
def letGo (sim : Simulation) (id : Nat) : Simulation :=
  { sim with held := sim.held.filter (· != id) }

/-- Takes what was collected: outcomes, sightings and events. -/
def collect (sim : Simulation) : Simulation :=
  { sim with outcomes := [], sightings := [], events := [] }

end Simulation

namespace Activity

/-- The clients that an activity keeps alive. -/
def clients : Activity → List Nat
  | .feature (.ofClient id) _ _ _ _ => [id]
  | .feature .free _ _ _ _ => []
  | .request call _ | .handshake call | .willSave call | .shutdown call _ => [call.client]
  | .save _ call others _ => call.client :: others

/-- The times at which an activity gives up waiting. -/
def deadlines : Activity → List Nat
  | .feature _ _ _ limit _ => (limit.map Prod.fst).toList
  | .request call _ | .handshake call | .willSave call | .save _ call _ _ => call.deadline.toList
  | .shutdown call graceEnd => graceEnd :: call.deadline.toList

end Activity

end LanguageClient
