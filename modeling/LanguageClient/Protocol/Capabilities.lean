import LanguageClient.Protocol.Options

/-!
# Capabilities of servers

What a server grants in its answer to the handshake. How documents are synchronized is typed; the
capabilities that each enable one method stay as they came, in a list that keeps the order of their
declaration, until they are read in the form that the method asks for.
-/

namespace LanguageClient

open FieldReader

/-- A capability that enables one method. -/
inductive Provider
  | notebookDocumentSync
  | completion
  | hover
  | signatureHelp
  | declaration
  | definition
  | typeDefinition
  | implementation
  | references
  | documentHighlight
  | documentSymbol
  | codeAction
  | codeLens
  | documentLink
  | color
  | workspaceSymbol
  | documentFormatting
  | documentRangeFormatting
  | documentOnTypeFormatting
  | rename
  | foldingRange
  | selectionRange
  | executeCommand
  | callHierarchy
  | linkedEditingRange
  | semanticTokens
  | moniker
  | typeHierarchy
  | inlineValue
  | inlayHint
  | diagnostic
  deriving DecidableEq

namespace Provider

/-- All providers, in the order of their declaration. -/
def all : List Provider := [
  .notebookDocumentSync, .completion, .hover, .signatureHelp, .declaration, .definition,
  .typeDefinition, .implementation, .references, .documentHighlight, .documentSymbol,
  .codeAction, .codeLens, .documentLink, .color, .workspaceSymbol, .documentFormatting,
  .documentRangeFormatting, .documentOnTypeFormatting, .rename, .foldingRange, .selectionRange,
  .executeCommand, .callHierarchy, .linkedEditingRange, .semanticTokens, .moniker,
  .typeHierarchy, .inlineValue, .inlayHint, .diagnostic]

/-- The field in which the capability is announced. -/
def field : Provider → String
  | .notebookDocumentSync => "notebookDocumentSync"
  | .completion => "completionProvider"
  | .hover => "hoverProvider"
  | .signatureHelp => "signatureHelpProvider"
  | .declaration => "declarationProvider"
  | .definition => "definitionProvider"
  | .typeDefinition => "typeDefinitionProvider"
  | .implementation => "implementationProvider"
  | .references => "referencesProvider"
  | .documentHighlight => "documentHighlightProvider"
  | .documentSymbol => "documentSymbolProvider"
  | .codeAction => "codeActionProvider"
  | .codeLens => "codeLensProvider"
  | .documentLink => "documentLinkProvider"
  | .color => "colorProvider"
  | .workspaceSymbol => "workspaceSymbolProvider"
  | .documentFormatting => "documentFormattingProvider"
  | .documentRangeFormatting => "documentRangeFormattingProvider"
  | .documentOnTypeFormatting => "documentOnTypeFormattingProvider"
  | .rename => "renameProvider"
  | .foldingRange => "foldingRangeProvider"
  | .selectionRange => "selectionRangeProvider"
  | .executeCommand => "executeCommandProvider"
  | .callHierarchy => "callHierarchyProvider"
  | .linkedEditingRange => "linkedEditingRangeProvider"
  | .semanticTokens => "semanticTokensProvider"
  | .moniker => "monikerProvider"
  | .typeHierarchy => "typeHierarchyProvider"
  | .inlineValue => "inlineValueProvider"
  | .inlayHint => "inlayHintProvider"
  | .diagnostic => "diagnosticProvider"

end Provider

/-- An operation on files, before or after it is carried out. -/
inductive FileOperation
  | didCreate
  | willCreate
  | didRename
  | willRename
  | didDelete
  | willDelete
  deriving DecidableEq

namespace FileOperation

/-- All operations, in the order of their declaration. -/
def all : List FileOperation :=
  [.didCreate, .willCreate, .didRename, .willRename, .didDelete, .willDelete]

/-- The field in which the interest in an operation is announced. -/
def field : FileOperation → String
  | .didCreate => "didCreate"
  | .willCreate => "willCreate"
  | .didRename => "didRename"
  | .willRename => "willRename"
  | .didDelete => "didDelete"
  | .willDelete => "willDelete"

end FileOperation

/-- The value of each key that has one, in the order of the keys. -/
def readEach {κ : Type} (keys : List κ) (field : κ → String) : FieldReader (List (κ × Json)) := do
  let values ← keys.mapM fun key => do return (← nullable (field key)).map (key, ·)
  return values.filterMap id

/-- The fields of the keys that have a value. -/
def writeEach {κ : Type} (field : κ → String) (values : List (κ × Json)) : List WrittenField :=
  values.map fun entry => .field (field entry.1) entry.2

/-- A shorthand for how documents are synchronized, or the full options. -/
inductive DocumentSync
  | kind (kind : SyncKind)
  | options (options : SyncOptions)

namespace DocumentSync

instance : Wire DocumentSync where
  decode? value := (decode? value).map .kind <|> (decode? value).map .options
  encode
    | .kind shorthand => encode shorthand
    | .options full => encode full

/-- The options that a shorthand stands for: any kind but `none` opens, closes and saves too. -/
def toOptions : DocumentSync → SyncOptions
  | .options full => full
  | .kind .none => ⟨some false, some .none, none, none, none⟩
  | .kind shorthand => ⟨some true, some shorthand, none, none, some (.options ⟨some false⟩)⟩

end DocumentSync

/-- The id under which changes of folders are registered, or a plain switch. -/
inductive ChangeNotifications
  | id (id : String)
  | flag (enabled : Bool)

instance : Wire ChangeNotifications where
  decode? value := (decode? value).map .id <|> (decode? value).map .flag
  encode
    | .id text => encode text
    | .flag enabled => encode enabled

/-- What a server understands of workspace folders. -/
structure FolderCapabilities where
  supported : Option Bool
  changeNotifications : Option ChangeNotifications

instance : Wire FolderCapabilities where
  decode? := Json.readRecord? do
    return {
      supported := ← nullable "supported"
      changeNotifications := ← nullable "changeNotifications" }
  encode folders := .record [
    .optionalField "supported" folders.supported,
    .optionalField "changeNotifications" folders.changeNotifications]

/-- The operations on files that a server wants to hear about, with their raw options. -/
structure FileOperationCapabilities where
  operations : List (FileOperation × Json)

instance : Wire FileOperationCapabilities where
  decode? := Json.readRecord? do
    return { operations := ← readEach FileOperation.all FileOperation.field }
  encode capabilities := .record (writeEach FileOperation.field capabilities.operations)

/-- What a server grants for the workspace as a whole. -/
structure WorkspaceCapabilities where
  folders : Option FolderCapabilities
  fileOperations : Option FileOperationCapabilities

instance : Wire WorkspaceCapabilities where
  decode? := Json.readRecord? do
    return {
      folders := ← nullable "workspaceFolders"
      fileOperations := ← nullable "fileOperations" }
  encode workspace := .record [
    .optionalField "workspaceFolders" workspace.folders,
    .optionalField "fileOperations" workspace.fileOperations]

/-- Everything that a server grants in its answer to the handshake. -/
structure ServerCapabilities where
  positionEncoding : Option PositionEncoding
  documentSync : Option DocumentSync
  /-- The raw values of the capabilities that enable one method each. -/
  providers : List (Provider × Json)
  workspace : Option WorkspaceCapabilities
  experimental : Option Json

instance : Wire ServerCapabilities where
  decode? := Json.readRecord? do
    return {
      positionEncoding := ← nullable "positionEncoding"
      documentSync := ← nullable "textDocumentSync"
      providers := ← readEach Provider.all Provider.field
      workspace := ← nullable "workspace"
      experimental := ← nullable "experimental" }
  encode capabilities := .record <|
    [.optionalField "positionEncoding" capabilities.positionEncoding,
      .optionalField "textDocumentSync" capabilities.documentSync] ++
    writeEach Provider.field capabilities.providers ++
    [.optionalField "workspace" capabilities.workspace,
      .optionalField "experimental" capabilities.experimental]

namespace ServerCapabilities

/-- The raw value of a provider. -/
def provider? (capabilities : ServerCapabilities) (provider : Provider) : Option Json :=
  capabilities.providers.lookup provider

/-- The raw value of the interest in a file operation. -/
def fileOperation? (capabilities : ServerCapabilities) (operation : FileOperation) :
    Option Json := do
  let workspace ← capabilities.workspace
  let operations ← workspace.fileOperations
  operations.operations.lookup operation

end ServerCapabilities

end LanguageClient
