import LanguageClient.Protocol.Capabilities

/-!
# The handshake

The first request of a client, in which it says who it is and what it understands, and the answer
of the server. The client announces for every feature that it can be registered later.
-/

namespace LanguageClient

open FieldReader

/-- The name and the version of a program. -/
structure ProgramInfo where
  name : String
  version : Option String

instance : Wire ProgramInfo where
  decode? := Json.readRecord? do
    return { name := ← required "name", version := ← nullable "version" }
  encode info := .record [.field "name" info.name, .optionalField "version" info.version]

/-- A folder of the workspace. -/
structure WorkspaceFolder where
  uri : String
  name : String

instance : Wire WorkspaceFolder where
  decode? := Json.readRecord? do return { uri := ← required "uri", name := ← required "name" }
  encode folder := .record [.field "uri" folder.uri, .field "name" folder.name]

/-- What the client understands in general. -/
structure GeneralSupport where
  positionEncodings : Option (List String)

instance : Wire GeneralSupport where
  decode? := Json.readRecord? do return { positionEncodings := ← nullable "positionEncodings" }
  encode support := .record [.optionalField "positionEncodings" support.positionEncodings]

/-- What the client can show. -/
structure WindowSupport where
  workDoneProgress : Option Bool

instance : Wire WindowSupport where
  decode? := Json.readRecord? do return { workDoneProgress := ← nullable "workDoneProgress" }
  encode support := .record [.optionalField "workDoneProgress" support.workDoneProgress]

/-- What the client understands of each feature about documents. -/
structure DocumentSupport where
  features : List (String × Json)

namespace DocumentSupport

/-- The names of the features, in the order of their declaration. -/
def names : List String := [
  "synchronization", "completion", "hover", "signatureHelp", "declaration", "definition",
  "typeDefinition", "implementation", "references", "documentHighlight", "documentSymbol",
  "codeAction", "codeLens", "documentLink", "colorProvider", "formatting", "rangeFormatting",
  "onTypeFormatting", "rename", "foldingRange", "selectionRange", "linkedEditingRange",
  "callHierarchy", "semanticTokens", "moniker", "typeHierarchy", "inlineValue", "inlayHint",
  "diagnostic"]

instance : Wire DocumentSupport where
  decode? := Json.readRecord? do return { features := ← readEach names id }
  encode support := .record (writeEach id support.features)

end DocumentSupport

/-- What the client understands of features about the workspace. -/
structure WorkspaceSupport where
  didChangeConfiguration : Option Json
  didChangeWatchedFiles : Option Json
  symbol : Option Json
  executeCommand : Option Json
  workspaceFolders : Option Bool
  configuration : Option Bool
  fileOperations : Option Json
  diagnostics : Option Json

instance : Wire WorkspaceSupport where
  decode? := Json.readRecord? do
    return {
      didChangeConfiguration := ← nullable "didChangeConfiguration"
      didChangeWatchedFiles := ← nullable "didChangeWatchedFiles"
      symbol := ← nullable "symbol"
      executeCommand := ← nullable "executeCommand"
      workspaceFolders := ← nullable "workspaceFolders"
      configuration := ← nullable "configuration"
      fileOperations := ← nullable "fileOperations"
      diagnostics := ← nullable "diagnostics" }
  encode support := .record [
    .optionalField "didChangeConfiguration" support.didChangeConfiguration,
    .optionalField "didChangeWatchedFiles" support.didChangeWatchedFiles,
    .optionalField "symbol" support.symbol,
    .optionalField "executeCommand" support.executeCommand,
    .optionalField "workspaceFolders" support.workspaceFolders,
    .optionalField "configuration" support.configuration,
    .optionalField "fileOperations" support.fileOperations,
    .optionalField "diagnostics" support.diagnostics]

/-- Everything that the client understands. -/
structure ClientCapabilities where
  general : Option GeneralSupport
  window : Option WindowSupport
  documents : Option DocumentSupport
  workspace : Option WorkspaceSupport

instance : Wire ClientCapabilities where
  decode? := Json.readRecord? do
    return {
      general := ← nullable "general"
      window := ← nullable "window"
      documents := ← nullable "textDocument"
      workspace := ← nullable "workspace" }
  encode capabilities := .record [
    .optionalField "general" capabilities.general, .optionalField "window" capabilities.window,
    .optionalField "textDocument" capabilities.documents,
    .optionalField "workspace" capabilities.workspace]

/-- What a client says in the handshake. -/
structure HandshakeParams where
  processId : Option UInt32
  rootUri : Option String
  capabilities : ClientCapabilities
  clientInfo : Option ProgramInfo
  initializationOptions : Option Json
  workspaceFolders : Option (List WorkspaceFolder)

instance : Wire HandshakeParams where
  decode? := Json.readRecord? do
    return {
      processId := ← nullable "processId"
      rootUri := ← nullable "rootUri"
      capabilities := ← required "capabilities"
      clientInfo := ← nullable "clientInfo"
      initializationOptions := ← nullable "initializationOptions"
      workspaceFolders := ← nullable "workspaceFolders" }
  encode params := .record [
    .field "processId" params.processId, .field "rootUri" params.rootUri,
    .field "capabilities" params.capabilities, .optionalField "clientInfo" params.clientInfo,
    .optionalField "initializationOptions" params.initializationOptions,
    .optionalField "workspaceFolders" params.workspaceFolders]

/-- What a server answers in the handshake. -/
structure HandshakeResult where
  capabilities : ServerCapabilities
  serverInfo : Option ProgramInfo

instance : Wire HandshakeResult where
  decode? := Json.readRecord? do
    return { capabilities := ← required "capabilities", serverInfo := ← nullable "serverInfo" }
  encode result := .record [
    .field "capabilities" result.capabilities, .optionalField "serverInfo" result.serverInfo]

/-- The unit in which a server counts positions; one that names none counts in UTF-16. -/
def HandshakeResult.encoding (result : HandshakeResult) : PositionEncoding :=
  result.capabilities.positionEncoding.getD .utf16

namespace ClientCapabilities

/-- A feature that can be registered later. -/
def late : Json := .object [("dynamicRegistration", .bool true)]

/-- A feature that can be registered later, with more that the client understands of it. -/
def lateWith (more : List (String × Json)) : Json :=
  .object (("dynamicRegistration", .bool true) :: more)

/-- The fields that a second request may fill in. -/
def resolving (fields : List String) : String × Json :=
  ("resolveSupport", .object [("properties", encode fields)])

/-- Answers may tell what they are reached from. -/
def linked : Json := lateWith [("linkSupport", .bool true)]

/-- What the client understands of a feature about documents. -/
def ofFeature (name : String) : Json :=
  if name == "synchronization" then
    lateWith [
      ("willSave", .bool true), ("willSaveWaitUntil", .bool true), ("didSave", .bool true)]
  else if name == "completion" then
    lateWith [("completionItem", .object [
      ("labelDetailsSupport", .bool true),
      resolving ["documentation", "detail", "additionalTextEdits"]])]
  else if ["declaration", "definition", "typeDefinition", "implementation"].contains name then
    linked
  else if name == "codeAction" then
    lateWith [
      ("codeActionLiteralSupport", .object [("codeActionKind", .object [("valueSet",
        encode ((Vocabulary.members (α := CodeActionKind)).map fun entry =>
          Vocabulary.text entry.1))])]),
      resolving ["edit"]]
  else if name == "semanticTokens" then
    lateWith [
      ("requests", .object [
        ("range", .bool true), ("full", .object [("delta", .bool true)])]),
      ("tokenTypes", .arr []), ("tokenModifiers", .arr []),
      ("formats", encode ["relative"])]
  else if name == "inlayHint" then lateWith [resolving ["tooltip", "textEdits"]]
  else late

/-- Everything that the client understands, with the unit in which it counts positions. -/
def announced (encoding : PositionEncoding) : ClientCapabilities where
  general := some ⟨some [Vocabulary.text encoding]⟩
  window := some ⟨some true⟩
  documents := some ⟨DocumentSupport.names.map fun name => (name, ofFeature name)⟩
  workspace := some {
    didChangeConfiguration := some late
    didChangeWatchedFiles := some (lateWith [("relativePatternSupport", .bool true)])
    symbol := some (lateWith [resolving ["location.range"]])
    executeCommand := some late
    workspaceFolders := some true
    configuration := some true
    fileOperations := some (lateWith (FileOperation.all.map fun operation =>
      (operation.field, .bool true)))
    diagnostics := some (.object [("refreshSupport", .bool true)]) }

end ClientCapabilities

end LanguageClient
