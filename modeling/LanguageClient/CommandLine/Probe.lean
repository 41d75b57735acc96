import LanguageClient.CommandLine.Arguments
import LanguageClient.CommandLine.Machine

/-!
# Listing what a server grants
-/

namespace LanguageClient.CommandLine

/-- The path of an address as seen from the workspace; other addresses are shown as they are. -/
def displayUri (root uri : String) : String :=
  if Uri.isFile uri then Path.relativeTo root (Uri.toPath uri) else uri

/-- Opens files one after the other, up to the first one that cannot be opened. -/
def openFiles (root : String) : Simulation → List String → List String →
    Simulation × Except DocumentError (List String)
  | sim, opened, [] => (sim, .ok opened)
  | sim, opened, file :: rest =>
    match sim.session.openDocument file none with
    | .error error => (sim, .error error)
    | .ok (id, session) =>
      let uri := ((session.documents[id]?).map TextDocument.uri).getD ""
      openFiles root { sim with session } (opened ++ [displayUri root uri]) rest

/-- What a client knows about its server. -/
def describe (client : Client) (methods opened : List String) : List WrittenField :=
  let shown := client.registry.grants.filter fun entry =>
    methods.isEmpty || methods.contains entry.1
  [.field "server" client.name,
    .optionalField "server_info" client.serverInfo,
    .field "position_encoding" (Vocabulary.text client.positionEncoding),
    .field "opened" opened,
    .field "method_count" (UInt64.ofNat shown.length),
    .field "registrations"
      (Json.object (shown.map fun entry => (entry.1, .arr (entry.2.map Grant.toJson))))]

/-- Lists the grants of a server, after files have been opened. -/
def probe (workplace : Workplace) (arguments : ProbeArguments) : Report :=
  match workplace.startServer arguments.server arguments.args arguments.settleSeconds with
  | .error report => report
  | .ok (work, id) =>
    let session := work.sim.session.beginWorkspace workplace.root
      workplace.settings.client.positionEncoding
    let (sim, opened) := openFiles workplace.root
      { work.sim with session := session.attach id } [] arguments.openFiles
    let work := { work with sim }
    match opened with
    | .error error =>
      .refusal { work with sim := sim.shutdownWorkspace } error.message
    | .ok opened =>
      let work := if opened.isEmpty then work else work.wait arguments.settleSeconds
      let fields := ((work.sim.session.clients[id]?).map fun client =>
        describe client arguments.methods opened).getD []
      .success { work with sim := work.sim.shutdownWorkspace } fields

end LanguageClient.CommandLine
