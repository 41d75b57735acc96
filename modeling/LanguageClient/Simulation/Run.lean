import LanguageClient.Simulation.Progress

/-!
# Running a simulation

A round lets every server receive what its client has written, lets every client read what has
arrived, and continues every activity that can be continued. Rounds follow each other until nothing
changes any more; only then the clock may move, from one deadline to the next.
-/

namespace LanguageClient.Simulation

/-- Whether anything can still use a client. -/
def isAlive (sim : Simulation) (id : Nat) : Bool :=
  sim.held.contains id ||
    (sim.session.workspace.any fun workspace => workspace.clients.contains id) ||
    sim.activities.any fun entry => entry.2.clients.contains id

/-- Notes that a server has seen something. -/
def witness (sim : Simulation) (id : Nat) (sighting : Sighting) : Simulation :=
  { sim with sightings := sim.sightings ++ [(id, sighting)] }

/-- Lets the server of a client receive what the client has written. If the server has closed its
side, the first message that cannot be written ends the sending. -/
def deliverOutbox (sim : Simulation) (id : Nat) (client : Client) (link : Link) : Simulation :=
  if link.isOpen then
    let sim := sim.modifyClient id fun client => { client with outbox := [] }
    client.outbox.foldl (fun sim message =>
      (sim.witness id (.message message.toJson)).modifyLink id (·.deliver message)) sim
  else sim.modifyClient id fun client => { client with outbox := [], isSending := false }

/-- Closes the side of a client that does not send any more. -/
def leave (sim : Simulation) (id : Nat) (link : Link) : Simulation :=
  let sim := sim.modifyClient id fun client => { client with isSending := false }
  let sim := sim.modifyLink id fun link => { link with isLeft := true }
  if link.isOpen then sim.witness id .goodbye else sim

/-- Writes what a client has to write; tells whether anything happened. -/
def writeRound (sim : Simulation) (id : Nat) : Simulation × Bool :=
  match sim.session.clients[id]?, sim.links[id]? with
  | some client, some link =>
    if !client.outbox.isEmpty then (sim.deliverOutbox id client link, true)
    else if !link.isLeft && (!client.isSending || !sim.isAlive id) then (sim.leave id link, true)
    else (sim, false)
  | _, _ => (sim, false)

/-- Lets a client take one message, or the end of the stream. Nobody takes it if the client cannot
be used any more. A body that no memory can hold ends the reading without anyone being told. -/
def readOne (sim : Simulation) (id : Nat) (client : Client) (link : Link) :
    Option Simulation :=
  let stop (link : Link) : Link := { link with isReading := false }
  match Frame.read (!link.isOpen) link.incoming with
  | .waiting => none
  | .done message rest =>
    if !sim.isAlive id then some (sim.modifyLink id stop)
    else
      let (client, events) := client.receive sim.session.files message
      let sim := (sim.modifyClient id fun _ => client).modifyLink id fun link =>
        { link with incoming := rest }
      some { sim with events := sim.events ++ events.map (id, ·) }
  | .failed error =>
    let sim := sim.modifyLink id stop
    some (if sim.isAlive id && error != .oversized then sim.modifyClient id Client.terminate
      else sim)

/-- Lets a client read all that has arrived; every message takes at least one byte. -/
def readAll : (fuel : Nat) → Simulation → (id : Nat) → Simulation × Bool
  | 0, sim, _ => (sim, false)
  | fuel + 1, sim, id =>
    match sim.session.clients[id]?, sim.links[id]? with
    | some client, some link =>
      if !link.isReading then (sim, false)
      else
        match sim.readOne id client link with
        | none => (sim, false)
        | some sim => ((readAll fuel sim id).1, true)
    | _, _ => (sim, false)

/-- Lets a client read all that has arrived; tells whether anything happened. -/
def readRound (sim : Simulation) (id : Nat) : Simulation × Bool :=
  readAll (((sim.links[id]?).map fun link => link.incoming.length).getD 0 + 2) sim id

/-- Continues the activity with a number; tells whether anything happened. -/
def continueRound (sim : Simulation) (number : Nat) : Simulation × Bool :=
  match (sim.activities.lookup number).bind sim.continue? with
  | none => (sim, false)
  | some (sim, progress) =>
    let sim := { sim with activities := sim.activities.filter fun entry => entry.1 != number }
    (sim.note number progress, true)

/-- Does something for every item, and tells whether anything happened. -/
def forEach (step : Simulation → Nat → Simulation × Bool) (sim : Simulation) (items : List Nat) :
    Simulation × Bool :=
  items.foldl (fun (sim, moved) item =>
    let (sim, movedNow) := step sim item
    (sim, moved || movedNow)) (sim, false)

/-- One round; tells whether anything happened. -/
def round (sim : Simulation) : Simulation × Bool :=
  let clients := List.range sim.links.length
  let (sim, wrote) := forEach writeRound sim clients
  let (sim, read) := forEach readRound sim clients
  let (sim, continued) := forEach continueRound sim (sim.activities.map Prod.fst)
  (sim, wrote || read || continued)

/-- Rounds up to the first one in which nothing happens. -/
def settleWithin : (fuel : Nat) → Simulation → Simulation
  | 0, sim => sim
  | fuel + 1, sim =>
    match sim.round with
    | (sim, true) => settleWithin fuel sim
    | (sim, false) => sim

/-- How many rounds a simulation may take to come to rest. -/
def maxRounds : Nat := 100000

/-- Lets everything happen that can happen without the clock. -/
def settle (sim : Simulation) : Simulation :=
  settleWithin maxRounds sim

/-- The next time at which an activity gives up waiting. -/
def nextDeadline? (sim : Simulation) : Option Nat :=
  ((sim.activities.flatMap fun entry => entry.2.deadlines).filter (sim.clock < ·)).min?

/-- Moves the clock to a time, through every deadline on the way. -/
def advanceTo : (fuel : Nat) → Simulation → (time : Nat) → Simulation
  | 0, sim, _ => sim
  | fuel + 1, sim, time =>
    match sim.nextDeadline?.filter (· ≤ time) with
    | some deadline => advanceTo fuel (settle { sim with clock := deadline }) time
    | none => settle { sim with clock := time }

/-- Moves the clock onwards. -/
def advance (sim : Simulation) (duration : Duration) : Simulation :=
  advanceTo maxRounds sim (sim.clock + duration.nanos)

/-- Whether all of some activities have ended. -/
def haveEnded (sim : Simulation) (numbers : List Nat) : Bool :=
  numbers.all fun number => (sim.activities.lookup number).isNone

/-- Moves the clock from deadline to deadline until some activities have ended. -/
def runUntilWithin : (fuel : Nat) → Simulation → (numbers : List Nat) → Simulation
  | 0, sim, _ => sim
  | fuel + 1, sim, numbers =>
    let sim := sim.settle
    if sim.haveEnded numbers then sim
    else
      match sim.nextDeadline? with
      | some deadline => runUntilWithin fuel { sim with clock := deadline } numbers
      | none => sim

/-- Runs until some activities have ended. -/
def runUntil (sim : Simulation) (numbers : List Nat) : Simulation :=
  runUntilWithin maxRounds sim numbers

/-- Runs an operation to its end. -/
def runToEnd (begun : Simulation × Progress) : Simulation × Option Outcome :=
  let (number, sim) := launch begun
  let sim := sim.runUntil [number]
  ({ sim with outcomes := sim.outcomes.filter fun entry => entry.1 != number },
    sim.outcomes.lookup number)

/-- Saves a document, however long that takes. -/
def save (sim : Simulation) (document : Nat) : Simulation × Except DocumentError Unit :=
  match runToEnd (sim.beginSave document) with
  | (sim, some (.document result)) => (sim, result)
  | (sim, _) => (sim, .ok ())

/-- Closes the workspace and shuts down all servers that were told about its documents. -/
def shutdownWorkspace (sim : Simulation) : Simulation :=
  let clients := (sim.session.workspace.map Workspace.clients).getD []
  let session := sim.session.closeWorkspace.modifyWorkspace fun workspace =>
    { workspace with clients := [] }
  let (numbers, sim) := clients.foldl (fun ((numbers, sim) : List Nat × Simulation) id =>
    match sim.session.clients[id]? with
    | none => (numbers, sim)
    | some client =>
      let (number, sim) := launch (sim.beginShutdown id client)
      (number :: numbers, sim)) ([], { sim with session })
  let sim := sim.runUntil numbers
  { sim with outcomes := sim.outcomes.filter fun entry => !numbers.contains entry.1 }

end LanguageClient.Simulation
