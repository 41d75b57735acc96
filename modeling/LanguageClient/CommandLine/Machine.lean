import LanguageClient.Settings.Store
import LanguageClient.Simulation.Run

/-!
# Starting servers for a command

A command works on the files of a machine, in a folder that is its workspace, with the settings that
are in effect there. A language server is started by the command that the settings name for it; a
machine has some such commands installed, and all of them behave alike.
-/

namespace LanguageClient.CommandLine

/-- The machine on which a command is carried out. -/
structure Machine where
  files : FileTree
  environment : Environment
  /-- The commands that start a language server. -/
  installed : List String
  server : ScriptedServer
  /-- The process that carries out the command. -/
  processId : UInt32

/-- Where a command is carried out. -/
structure Workplace where
  machine : Machine
  root : String
  settings : Settings

/-- What a command prints. -/
inductive Output
  | nothing
  | text (content : String)
  | json (content : Json)

/-- What is printed, as it is written. -/
def Output.print : Output → String
  | .nothing => ""
  | .text content => content
  | .json content => content.printSpread ++ "\n"

/-- A command that is under way: the servers that it has started, each with its arguments, and what
has happened since. -/
structure Work where
  sim : Simulation
  started : List (List String)

namespace Work

/-- A command that has not started a server. -/
def begin (workplace : Workplace) : Work := ⟨.start workplace.machine.files, []⟩

/-- Carries out an operation of a client to its end. -/
def perform (work : Work) (id : Nat)
    (operation : Simulation → Client → Simulation × Progress) : Work × Option Outcome :=
  match work.sim.session.clients[id]? with
  | none => (work, none)
  | some client =>
    let (sim, outcome) := Simulation.runToEnd (operation work.sim client)
    ({ work with sim }, outcome)

/-- Shuts a server down. -/
def shutdown (work : Work) (id : Nat) : Work :=
  (work.perform id fun sim client => sim.beginShutdown id client).1

/-- Gives the servers time. -/
def wait (work : Work) (seconds : Nat) : Work :=
  if seconds == 0 then work else { work with sim := work.sim.advance (.ofSeconds seconds) }

end Work

/-- What has come of a command. -/
structure Report where
  exitCode : Nat
  output : Output
  /-- The files after the command. -/
  files : FileTree
  started : List (List String)
  sightings : List (Nat × Sighting)

namespace Report

/-- A command that prints a record beside the mark of success. -/
def success (work : Work) (fields : List WrittenField) : Report where
  exitCode := 0
  output := .json (Json.record (fields ++ [.field "success" true]))
  files := work.sim.session.files
  started := work.started
  sightings := work.sim.sightings

/-- The record that is printed for a failure. -/
def failureRecord (message : String) : Json :=
  Json.record [.field "success" false, .field "error" message]

/-- A command that tells what it could not do. -/
def refusal (work : Work) (message : String) : Report where
  exitCode := 0
  output := .json (failureRecord message)
  files := work.sim.session.files
  started := work.started
  sightings := work.sim.sightings

/-- A command that could not be carried out at all. -/
def failure (work : Work) (message : String) : Report :=
  { refusal work message with exitCode := 2 }

/-- A command that breaks off without telling why. -/
def crash (work : Work) : Report :=
  { refusal work "" with exitCode := 101, output := .nothing }

end Report

namespace Workplace

/-- How a server is started. With arguments of its own, a name always is a command. -/
def serverSettings (workplace : Workplace) (server : String) (args : List String) :
    ServerSettings :=
  match workplace.settings.server? server with
  | some settings => if args.isEmpty then settings else .ofCommand server args
  | none => .ofCommand server args

/-- Why a server cannot be started, if it cannot. -/
def startFailure? (workplace : Workplace) (settings : ServerSettings) : Option FileError :=
  let machine := workplace.machine
  let failure := machine.files.startFailure workplace.root settings.command settings.args
  if failure == .badWord then some failure
  else if !machine.files.isFolder workplace.root then some .notFolder
  else if machine.installed.contains settings.command then none
  else some failure

/-- The wording of a failure of a client. -/
def wording (error : ClientError) : String :=
  error.message?.getD ""

/-- Starts a server without talking to it. -/
def spawn (workplace : Workplace) (work : Work) (settings : ServerSettings) :
    Except ClientError (Nat × Work) :=
  let command := settings.command
  match workplace.startFailure? settings with
  | some error => .error (.cannotStart command error)
  | none =>
    let own := workplace.settings.client
    let client := Client.connect ((Path.fileName? command).getD command) own.positionEncoding
      own.timeouts workplace.machine.processId settings.options
    let (id, sim) := work.sim.connect client workplace.machine.server
    .ok (id, ⟨sim, work.started ++ [settings.args]⟩)

/-- Starts a server, completes the handshake, and gives it time to register features. A server that
does not complete the handshake is shut down. Where the limit for the handshake is too large to be
computed, the command breaks off before the server has come to anything. -/
def startServer (workplace : Workplace) (server : String) (args : List String) (seconds : Nat) :
    Except Report (Work × Nat) :=
  let before := Work.begin workplace
  match workplace.spawn before (workplace.serverSettings server args) with
  | .error error => .error (.failure before (wording error))
  | .ok (id, work) =>
    if (workplace.settings.client.timeouts.ofMethod? "initialize").isNone then
      .error (.crash before)
    else
      match work.perform id fun sim client => sim.beginHandshake id client workplace.root with
      | (work, some (.client (.error error))) =>
        .error (.failure (work.shutdown id) (wording error))
      | (work, _) => .ok (work.wait seconds, id)

end Workplace

end LanguageClient.CommandLine
