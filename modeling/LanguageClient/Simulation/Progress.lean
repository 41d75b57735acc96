import LanguageClient.Simulation.Basic

/-!
# Starting and continuing activities

An activity begins with everything that can be done at once. Whenever the outcome that it waits for
is decided, or its time is over, it continues: it ends, or waits for the next thing. If both have
come, the decided outcome counts.
-/

namespace LanguageClient

/-- What has become of an operation: it waits, or it has ended. -/
inductive Progress
  | waiting (activity : Activity)
  | ended (outcome : Outcome)

namespace Simulation

/-- The time at which a request of a method is given up if it is sent now. -/
def deadlineFor (sim : Simulation) (client : Client) (method : String) : Option Nat :=
  (client.timeouts.ofMethod? method).map fun limit => sim.clock + limit.nanos

/-- Whether a time has come. -/
def isOver (sim : Simulation) (deadline : Option Nat) : Bool :=
  deadline.any (· ≤ sim.clock)

/-- Waits for a request that was just sent, or ends with the failure to send it. -/
def follow (sim : Simulation) (id : Nat) (method : String) (sent : Except ClientError Nat × Client)
    (wait : Call → Activity) : Simulation × Progress :=
  let (result, client) := sent
  let deadline := sim.deadlineFor client method
  let sim := sim.modifyClient id fun _ => client
  match result with
  | .ok number => (sim, .waiting (wait ⟨id, number, method, deadline⟩))
  | .error error => (sim, .ended (.client (.error error)))

/-- Begins to wait for a feature. -/
def beginFeature (sim : Simulation) (place : RegistryPlace) (method : String)
    (request : FeatureRequest) (limit : Option Duration) (throughClient : Bool) :
    Simulation × Progress :=
  match sim.registryAt? place with
  | none => (sim, .ended (.feature (.error (.abandoned method))))
  | some registry =>
    match registry.await sim.session.files method request with
    | (_, none) =>
      (sim, .ended (if throughClient then .client (.ok .null) else .feature (.ok ())))
    | (registry, some waiter) =>
      let limit := limit.map fun limit => (sim.clock + limit.nanos, limit)
      (sim.setRegistry place registry,
        .waiting (.feature place waiter method limit throughClient))

/-- Begins a request. -/
def beginRequest (sim : Simulation) (id : Nat) (client : Client) (method : String)
    (params : Option Json) (form : AnswerForm) : Simulation × Progress :=
  sim.follow id method (client.ask method params) fun call => .request call form

/-- Begins the handshake for the workspace at a path. -/
def beginHandshake (sim : Simulation) (id : Nat) (client : Client) (root : String) :
    Simulation × Progress :=
  sim.follow id Client.handshakeMethod (client.beginHandshake sim.session.files.homePath root)
    .handshake

/-- Begins to ask for edits before a document is saved. -/
def beginWillSave (sim : Simulation) (id : Nat) (client : Client) (uri language : String) :
    Simulation × Progress :=
  match client.askWillSaveEdits? sim.session.files uri language with
  | none => (sim, .ended (.client (.ok (.arr []))))
  | some sent => sim.follow id Client.willSaveWaitUntilMethod sent .willSave

/-- Ends a shutdown. -/
def endShutdown (sim : Simulation) (id : Nat) : Simulation × Progress :=
  (sim.modifyClient id Client.finishShutdown, .ended (.client (.ok .null)))

/-- Begins to shut a server down; the request may fail, but shutting down does not. -/
def beginShutdown (sim : Simulation) (id : Nat) (client : Client) : Simulation × Progress :=
  match client.beginShutdown with
  | none => (sim, .ended (.client (.ok .null)))
  | some sent =>
    let graceEnd := sim.clock + client.timeouts.shutdown.nanos
    match sim.follow id Client.shutdownMethod sent fun call => .shutdown call graceEnd with
    | (sim, .waiting activity) => (sim, .waiting activity)
    | (sim, .ended _) => sim.endShutdown id

/-- Queues the edits that were collected, writes the file and ends the save. -/
def endSave (sim : Simulation) (document : Nat) (edits : List TextEdit) : Simulation × Progress :=
  match sim.session.applySaveEdits document edits with
  | (session, .error error) => ({ sim with session }, .ended (.document (.error error)))
  | (session, .ok text) =>
    match session.writeText document text >>= (·.finishSave document text) with
    | .ok session => ({ sim with session }, .ended (.document (.ok ())))
    | .error error => ({ sim with session }, .ended (.document (.error error)))

/-- Tells the clients one after the other that a document is about to be saved, and asks each for
edits, up to the first one that has to answer. -/
def askForSave (sim : Simulation) (document : Nat) (edits : List TextEdit) :
    List Nat → Simulation × Progress
  | [] => sim.endSave document edits
  | id :: others =>
    match sim.session.find document with
    | .error error => (sim, .ended (.document (.error error)))
    | .ok saved =>
      let (number?, session) := (sim.session.tellWillSave id saved).askForEdits id saved
      let sim := { sim with session }
      match number?, session.clients[id]? with
      | some number, some client =>
        let method := Client.willSaveWaitUntilMethod
        let call : Call := ⟨id, number, method, sim.deadlineFor client method⟩
        (sim, .waiting (.save document call others edits))
      | _, _ => askForSave sim document edits others

/-- Begins to save a document. -/
def beginSave (sim : Simulation) (document : Nat) : Simulation × Progress :=
  match sim.session.beginSave document with
  | .error error => (sim, .ended (.document (.error error)))
  | .ok clients => sim.askForSave document [] clients

/-- The result of a call, if it is decided or given up, or if its time is over. -/
def takeResult? (sim : Simulation) (call : Call) :
    Option (Simulation × Except ClientError Json) :=
  match sim.session.clients[call.client]? with
  | none => none
  | some client =>
    match client.takeOutcome? call.id with
    | some (response, client) =>
      some (sim.modifyClient call.client fun _ => client, client.resultOf response)
    | none =>
      if client.isGivenUp call.id then some (sim, .error .cancelled)
      else if sim.isOver call.deadline then
        some (sim.modifyClient call.client fun client => client.cancelRequest call.id,
          .error (.requestTimeout client.name call.method))
      else none

/-- Continues to wait for a feature. -/
def continueFeature (sim : Simulation) (place : RegistryPlace) (waiter : Nat) (method : String)
    (limit : Option (Nat × Duration)) : Option (Simulation × Except FeatureError Unit) :=
  match sim.registryAt? place with
  | none => some (sim, .error (.abandoned method))
  | some registry =>
    match registry.resume? waiter method, limit with
    | some (result, registry), _ => some (sim.setRegistry place registry, result)
    | none, some (deadline, limit) =>
      if deadline ≤ sim.clock then
        let (result, registry) := registry.expire waiter method limit
        some (sim.setRegistry place registry, result)
      else none
    | none, none => none

/-- The edits in the answer of a server; null stands for none. -/
def editsOf (result : Json) : Except ClientError (List TextEdit) :=
  match (decode? result : Option (Option (List TextEdit))) with
  | some edits => .ok (edits.getD [])
  | none => .error .badAnswer

/-- Ends the handshake with the answer of the server. -/
def endHandshake (sim : Simulation) (id : Nat) (answer : Json) :
    Simulation × Except ClientError Json :=
  match (decode? answer : Option HandshakeResult), sim.session.clients[id]? with
  | some result, some client =>
    let (result, client) := client.finishHandshake sim.session.files result
    (sim.modifyClient id fun _ => client, result.map encode)
  | _, _ => (sim, .error .badAnswer)

/-- Continues an activity, if what it waits for has come. -/
def continue? (sim : Simulation) : Activity → Option (Simulation × Progress)
  | .feature place waiter method limit throughClient => do
    let (sim, result) ← sim.continueFeature place waiter method limit
    let outcome :=
      if throughClient then .client ((result.map fun _ => Json.null).mapError ClientError.feature)
      else .feature result
    return (sim, .ended outcome)
  | .request call form => do
    let (sim, result) ← sim.takeResult? call
    let result := result.bind fun result =>
      match form.read? result with
      | some result => .ok result
      | none => .error .badAnswer
    return (sim, .ended (.client result))
  | .handshake call => do
    let (sim, result) ← sim.takeResult? call
    match result with
    | .error error => return (sim, .ended (.client (.error error)))
    | .ok answer =>
      let (sim, result) := sim.endHandshake call.client answer
      return (sim, .ended (.client result))
  | .willSave call => do
    let (sim, result) ← sim.takeResult? call
    return (sim, .ended (.client ((result.bind editsOf).map encode)))
  | .shutdown call graceEnd =>
    match sim.takeResult? call with
    | some (sim, .ok result) =>
      let sim := if result.isNull then sim.modifyClient call.client Client.sendExit else sim
      some (sim.endShutdown call.client)
    | some (sim, .error _) => some (sim.endShutdown call.client)
    | none => if graceEnd ≤ sim.clock then some (sim.endShutdown call.client) else none
  | .save document call others edits => do
    let (sim, result) ← sim.takeResult? call
    let offered := ((result.bind editsOf).toOption).getD []
    return sim.askForSave document (edits ++ offered) others

/-- Takes in what has become of the operation with a number. -/
def note (sim : Simulation) (number : Nat) : Progress → Simulation
  | .waiting activity => { sim with activities := sim.activities ++ [(number, activity)] }
  | .ended outcome => { sim with outcomes := sim.outcomes ++ [(number, outcome)] }

/-- Gives an operation that has just begun a number. -/
def launch (begun : Simulation × Progress) : Nat × Simulation :=
  let (sim, progress) := begun
  let number := sim.nextActivity
  (number, { sim with nextActivity := number + 1 }.note number progress)

/-- Drops an activity. A call for a feature takes its entry along; the answer to a request stays
outstanding. -/
def drop (sim : Simulation) (number : Nat) : Simulation :=
  let rest := { sim with activities := sim.activities.filter fun entry => entry.1 != number }
  match sim.activities.lookup number with
  | some (.feature place waiter _ _ _) =>
    match rest.registryAt? place with
    | some registry => rest.setRegistry place (registry.forget waiter)
    | none => rest
  | _ => rest

end Simulation

end LanguageClient
