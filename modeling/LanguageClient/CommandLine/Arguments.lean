import LanguageClient.CommandLine.Shape

/-!
# The commands

There are three commands: one lists what a server grants, one checks for a single feature, and one
is about the settings. Every command takes the folder of the workspace; the innermost one that is
given counts, and a variable of the environment stands in for a missing one.
-/

namespace LanguageClient.CommandLine

/-- What is listed of a server. -/
structure ProbeArguments where
  server : String
  args : List String
  openFiles : List String
  methods : List String
  settleSeconds : Nat

/-- What is asked of a server. -/
structure CheckArguments where
  server : String
  method : String
  args : List String
  /-- Whether the feature is waited for. -/
  isRequired : Bool
  timeout : Option Nat
  settleSeconds : Nat
  documents : List String
  language : Option String
  syncKind : Option String
  includeText : Option Bool
  fileOperations : List String
  semanticTokens : List String
  codeActions : List String
  workspaceCommands : List String
  resolve : List ResolveSupport

/-- What is done with the settings. -/
inductive ConfigCommand
  | init (ofUser force : Bool)
  | show (ofUser : Bool)
  | path (ofUser : Bool)
  | servers

/-- A command with its arguments. -/
inductive Command
  | probe (arguments : ProbeArguments)
  | check (arguments : CheckArguments)
  | config (command : ConfigCommand)

/-- A command line. -/
structure Invocation where
  root : Option String
  command : Command

/-- The option for the folder of the workspace. -/
def rootOption : OptionShape := .valued "root" .path none

/-- The variable that stands in for the option. -/
def rootVariable : String := "LSP_CONDUCTOR_ROOT"

/-- The shape of the whole command line. -/
def mainShape : CommandShape := ⟨[rootOption], 0, false, ["probe", "check", "config", "help"]⟩

/-- The shape of the command that lists features. -/
def probeShape : CommandShape where
  options := [
    .repeated "open" .path none, .repeated "method" .text (some 'm'),
    .valued "settle-secs" .seconds none, rootOption]
  words := 1
  takesRest := true
  commands := []

/-- The shape of the command that checks for a feature. -/
def checkShape : CommandShape where
  options := [
    .switch "require" none, .valued "timeout" .seconds none, .valued "settle-secs" .seconds none,
    .repeated "document" .path (some 'd'), .valued "language" .text (some 'l'),
    .valued "sync-kind" .text none, .valued "include-text" .truth none,
    .repeated "file-operation" .path none, .repeated "semantic-tokens" .text none,
    .repeated "code-action" .text none, .repeated "workspace-command" .text none,
    .repeated "resolve" .resolveSupport none, rootOption]
  words := 2
  takesRest := true
  commands := []

/-- The names of the commands about the settings. -/
def configCommands : List String := ["init", "show", "path", "servers", "help"]

/-- The shape of the command about the settings. -/
def configShape : CommandShape := ⟨[rootOption], 0, false, configCommands⟩

/-- The option for the settings of the user. -/
def globalSwitch : OptionShape := .switch "global" none

/-- The shape of a command that takes switches only. -/
def switchShape (switches : List OptionShape) : CommandShape :=
  ⟨switches ++ [rootOption], 0, false, []⟩

/-- What comes of asking for help about one of some commands. -/
def helpAmong (commands : List String) : List String → UsageError
  | [] => .help
  | [command] => if commands.contains command then .help else .unknownCommand
  | _ => .unknownCommand

/-- A command that was read, with the folder that was given at its level or below. -/
structure Found (α : Type) where
  value : α
  root : Option String

/-- The folder at a level: the one given there, or that of the environment. -/
def levelRoot (environment : Option String) (given : Given) :
    Except UsageError (Option String) := do
  if given.has rootOption.name then return given.value? rootOption.name
  else
    match environment with
    | none => return none
    | some value =>
      ValueKind.path.check value
      return none

/-- Reads a command that has no commands below it. -/
def readLeaf {α : Type} (environment : Option String) (shape : CommandShape)
    (arguments : Given → Except UsageError α) (words : List String) :
    Except UsageError (Found α) := do
  let (given, _) ← shape.read .nothing words
  let given ← given.resolve
  let root ← levelRoot environment given
  return ⟨← arguments given, root⟩

/-- Reads a command that has commands below it. -/
def readBranch {α : Type} (environment : Option String) (shape : CommandShape)
    (below : String → List String → Except UsageError (Found α)) (words : List String) :
    Except UsageError (Found α) := do
  let (given, command?) ← shape.read .nothing words
  let found? ←
    match command? with
    | none => pure none
    | some (command, rest) => ((below command rest).map some).mapError (·.below command)
  let given ← given.resolve
  let root ← levelRoot environment given
  match found? with
  | some found => return { found with root := found.root <|> root }
  | none =>
    if given.options.isEmpty && environment.isNone then throw .nothingGiven
    else throw .missingCommand

/-- The number of seconds in a value that was checked before. -/
def secondsOf (value : String) : Nat :=
  (Numeral.read 64 value).toOption.getD 0

/-- The seconds for which a server is given time. -/
def settleSeconds (given : Given) : Nat :=
  ((given.value? "settle-secs").map secondsOf).getD 1

/-- The arguments of the command that lists features. -/
def probeArguments (given : Given) : Except UsageError ProbeArguments :=
  match given.words with
  | [server] => .ok {
      server := server
      args := given.rest
      openFiles := given.values "open"
      methods := given.values "method"
      settleSeconds := settleSeconds given }
  | _ => .error .missingArgument

/-- The arguments of the command that checks for a feature. A limit for waiting asks for the switch
to wait, but not where time to settle is given, which the switch excludes. -/
def checkArguments (given : Given) : Except UsageError CheckArguments :=
  let isRequired := given.has "require"
  let isSettling := given.has "settle-secs"
  if isRequired && isSettling then .error .conflict
  else if given.has "timeout" && !isRequired && !isSettling then .error .missingArgument
  else
    match given.words with
    | [server, method] => .ok {
        server := server
        method := method
        args := given.rest
        isRequired := isRequired
        timeout := (given.value? "timeout").map secondsOf
        settleSeconds := settleSeconds given
        documents := given.values "document"
        language := given.value? "language"
        syncKind := given.value? "sync-kind"
        includeText := (given.value? "include-text").map (· == "true")
        fileOperations := given.values "file-operation"
        semanticTokens := given.values "semantic-tokens"
        codeActions := given.values "code-action"
        workspaceCommands := given.values "workspace-command"
        resolve := (given.values "resolve").filterMap fun value =>
          (ResolveSupport.parse value).toOption }
    | _ => .error .missingArgument

/-- Reads a command about the settings. -/
def readConfig (environment : Option String) (command : String) (words : List String) :
    Except UsageError (Found ConfigCommand) :=
  let ofUser (given : Given) : Bool := given.has "global"
  match command with
  | "init" =>
    readLeaf environment (switchShape [globalSwitch, .switch "force" (some 'f')])
      (fun given => .ok (.init (ofUser given) (given.has "force"))) words
  | "show" =>
    readLeaf environment (switchShape [globalSwitch]) (fun given => .ok (.show (ofUser given)))
      words
  | "path" =>
    readLeaf environment (switchShape [globalSwitch]) (fun given => .ok (.path (ofUser given)))
      words
  | "servers" => readLeaf environment (switchShape []) (fun _ => .ok .servers) words
  | _ => .error (helpAmong configCommands words)

/-- Reads a command. -/
def readCommand (environment : Option String) (command : String) (words : List String) :
    Except UsageError (Found Command) := do
  match command with
  | "probe" =>
    let found ← readLeaf environment probeShape probeArguments words
    return ⟨.probe found.value, found.root⟩
  | "check" =>
    let found ← readLeaf environment checkShape checkArguments words
    return ⟨.check found.value, found.root⟩
  | "config" =>
    let found ← readBranch environment configShape (readConfig environment) words
    return ⟨.config found.value, found.root⟩
  | _ =>
    match words with
    | "config" :: rest => throw (helpAmong configCommands rest)
    | words => throw (helpAmong mainShape.commands words)

/-- Reads the words of a command line, without the name of the program. -/
def read (environment : Option String) (words : List String) : Except UsageError Invocation := do
  let found ← readBranch environment mainShape (readCommand environment) words
  return ⟨found.root <|> environment, found.value⟩

end LanguageClient.CommandLine
