import LanguageClient.CommandLine.Arguments
import LanguageClient.CommandLine.Machine

/-!
# Checking for a feature
-/

namespace LanguageClient.CommandLine

/-- The address of a file of the workspace. -/
def fileUri (workplace : Workplace) (path : String) : String :=
  Uri.ofPath workplace.machine.files.homePath (Path.join workplace.root path)

/-- The way of synchronizing that is asked for, by its name or its number. -/
def readSyncKind (text : String) : Except String SyncKind :=
  let lower := String.ofList (text.toList.map Char.toLower)
  let number : Except String Nat :=
    if lower == "none" then .ok 0
    else if lower == "full" then .ok 1
    else if lower == "incremental" then .ok 2
    else
      match Numeral.read 32 lower with
      | .ok number => .ok number
      | .error _ =>
        .error ("unknown sync kind '" ++ text ++ "', expected none, full or incremental")
  number.bind fun number =>
    (Vocabulary.ofRaw (.number (UInt32.ofNat number))).mapError UnrecognizedValue.message

/-- The members of a vocabulary that are asked for. -/
def readMembers (α : Type) [Vocabulary α] (texts : List String) : Except String (List α) :=
  (texts.mapM fun text => Vocabulary.ofRaw (.text text)).mapError UnrecognizedValue.message

/-- Adds a requirement for a list, unless nothing is asked for. -/
def addList {α : Type} (request : FeatureRequest) (items : List α)
    (requirement : List α → Requirement) : FeatureRequest :=
  if items.isEmpty then request else request.add (requirement items)

/-- The request that the arguments make. -/
def buildRequest (workplace : Workplace) (arguments : CheckArguments) :
    Except String FeatureRequest := do
  let request := addList .empty
    (arguments.documents.map fun path =>
      (⟨fileUri workplace path, arguments.language⟩ : DocumentInfo)) .textDocuments
  let request ←
    match arguments.syncKind with
    | none => pure request
    | some text => pure (request.add (.syncKind (← readSyncKind text)))
  let request :=
    match arguments.includeText with
    | none => request
    | some included => request.add (.includeText included)
  let request := addList request (arguments.fileOperations.map (fileUri workplace)) .fileOperations
  let request := addList request (← readMembers TokensMode arguments.semanticTokens) .semanticTokens
  let request := addList request (← readMembers CodeActionKind arguments.codeActions) .codeActions
  let request := addList request arguments.workspaceCommands .workspaceCommands
  return arguments.resolve.foldl (fun request support => request.add (.resolve support)) request

/-- The limit for waiting: as given, where zero means none, or as configured. -/
def featureLimit (workplace : Workplace) (arguments : CheckArguments) : Option Duration :=
  match arguments.timeout with
  | some 0 => none
  | some seconds => some (.ofSeconds seconds)
  | none => workplace.settings.client.timeouts.feature

/-- Waits for the feature; tells how long that took, and whether the feature is there. Only the
passing of the limit means that it is not. -/
def waitForFeature (workplace : Workplace) (arguments : CheckArguments) (work : Work) (id : Nat)
    (request : FeatureRequest) : Work × Duration × Except String Bool :=
  let before := work.sim.clock
  let (work, outcome) := work.perform id fun sim _ =>
    sim.beginFeature (.ofClient id) arguments.method request (featureLimit workplace arguments)
      false
  let available := match outcome with
    | some (.feature (.ok ())) => .ok true
    | some (.feature (.error (.timeout _ _))) => .ok false
    | some (.feature (.error error)) => .error error.message
    | _ => .ok false
  (work, ⟨work.sim.clock - before⟩, available)

/-- What is printed of a feature that has been checked for. -/
def describeCheck (arguments : CheckArguments) (request : FeatureRequest) (name : String)
    (available : Bool) (waited : Option Duration) : List WrittenField := [
  .field "server" name,
  .field "method" arguments.method,
  .field "available" available,
  .field "requirements" (UInt64.ofNat request.requirements.length),
  .optionalField "waited_ms" (waited.map fun waited => UInt64.ofNat waited.millis)]

/-- Checks whether a server grants a feature, or waits for it. Where this cannot be told, the
command breaks off. -/
def check (workplace : Workplace) (arguments : CheckArguments) : Report :=
  match buildRequest workplace arguments with
  | .error message => .failure (.begin workplace) message
  | .ok request =>
    let seconds := if arguments.isRequired then 0 else arguments.settleSeconds
    match workplace.startServer arguments.server arguments.args seconds with
    | .error report => report
    | .ok (work, id) =>
      match work.sim.session.clients[id]? with
      | none => .crash work
      | some client =>
        match client.registry.check? work.sim.session.files arguments.method request with
        | none => .crash work
        | some isMet =>
          let (work, waited, available) :=
            if arguments.isRequired then
              let (work, waited, available) := waitForFeature workplace arguments work id request
              (work, some waited, available)
            else (work, none, .ok isMet)
          let work := work.shutdown id
          match available with
          | .error message => .refusal work message
          | .ok available =>
            .success work (describeCheck arguments request client.name available waited)

end LanguageClient.CommandLine
