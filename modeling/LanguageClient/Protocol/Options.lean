import LanguageClient.Protocol.Filter

/-!
# Options of registrations

Each method is registered with options of one of a few forms. The parts that feature checks look at
are typed here; everything else in the options of a server is dropped.
-/

namespace LanguageClient

open FieldReader

/-- Whether the text is sent along when a document is saved. -/
structure SaveOptions where
  includeText : Option Bool

instance : Wire SaveOptions where
  decode? := Json.readRecord? do return { includeText := ← nullable "includeText" }
  encode options := .record [.optionalField "includeText" options.includeText]

/-- A plain switch, or the options of notifications about saving. -/
inductive SaveOption
  | flag (enabled : Bool)
  | options (options : SaveOptions)

namespace SaveOption

/-- Whether the server wants to hear about saving. -/
def isEnabled : SaveOption → Bool
  | .flag enabled => enabled
  | .options _ => true

/-- Whether the server wants the text along. -/
def includeText : SaveOption → Bool
  | .flag _ => false
  | .options choice => choice.includeText.getD false

instance : Wire SaveOption where
  decode? value := (decode? value).map .flag <|> (decode? value).map .options
  encode
    | .flag enabled => encode enabled
    | .options choice => encode choice

end SaveOption

/-- What a server wants to hear about the life of documents. -/
structure SyncOptions where
  openClose : Option Bool
  change : Option SyncKind
  willSave : Option Bool
  willSaveWaitUntil : Option Bool
  save : Option SaveOption

instance : Wire SyncOptions where
  decode? := Json.readRecord? do
    return {
      openClose := ← nullable "openClose"
      change := ← nullable "change"
      willSave := ← nullable "willSave"
      willSaveWaitUntil := ← nullable "willSaveWaitUntil"
      save := ← nullable "save" }
  encode options := .record [
    .optionalField "openClose" options.openClose, .optionalField "change" options.change,
    .optionalField "willSave" options.willSave,
    .optionalField "willSaveWaitUntil" options.willSaveWaitUntil,
    .optionalField "save" options.save]

/-- Options that every method about documents understands. -/
structure DocumentOptions where
  selector : Option DocumentSelector
  id : Option String

instance : Wire DocumentOptions where
  decode? := Json.readRecord? do
    return { selector := ← omissible "documentSelector", id := ← omissible "id" }
  encode options :=
    .record [.optionalField "documentSelector" options.selector, .optionalField "id" options.id]

/-- Options of notifications about changes. -/
structure ChangeOptions where
  selector : Option DocumentSelector
  syncKind : SyncKind

instance : Wire ChangeOptions where
  decode? := Json.readRecord? do
    return { selector := ← omissible "documentSelector", syncKind := ← required "syncKind" }
  encode options := .record [
    .optionalField "documentSelector" options.selector, .field "syncKind" options.syncKind]

/-- Options of notifications about saving. -/
structure SaveNoticeOptions where
  selector : Option DocumentSelector
  includeText : Option Bool

instance : Wire SaveNoticeOptions where
  decode? := Json.readRecord? do
    return { selector := ← omissible "documentSelector", includeText := ← omissible "includeText" }
  encode options := .record [
    .optionalField "documentSelector" options.selector,
    .optionalField "includeText" options.includeText]

/-- What a server understands of a single completion. -/
structure CompletionItemOptions where
  labelDetailsSupport : Option Bool

instance : Wire CompletionItemOptions where
  decode? := Json.readRecord? do
    return { labelDetailsSupport := ← omissible "labelDetailsSupport" }
  encode options := .record [.optionalField "labelDetailsSupport" options.labelDetailsSupport]

/-- Options of completion. -/
structure CompletionOptions where
  selector : Option DocumentSelector
  triggerCharacters : Option (List String)
  allCommitCharacters : Option (List String)
  resolveProvider : Option Bool
  completionItem : Option CompletionItemOptions

instance : Wire CompletionOptions where
  decode? := Json.readRecord? do
    return {
      selector := ← omissible "documentSelector"
      triggerCharacters := ← omissible "triggerCharacters"
      allCommitCharacters := ← omissible "allCommitCharacters"
      resolveProvider := ← omissible "resolveProvider"
      completionItem := ← omissible "completionItem" }
  encode options := .record [
    .optionalField "documentSelector" options.selector,
    .optionalField "triggerCharacters" options.triggerCharacters,
    .optionalField "allCommitCharacters" options.allCommitCharacters,
    .optionalField "resolveProvider" options.resolveProvider,
    .optionalField "completionItem" options.completionItem]

/-- Options of code actions. -/
structure CodeActionOptions where
  selector : Option DocumentSelector
  kinds : Option (List CodeActionKind)
  resolveProvider : Option Bool

instance : Wire CodeActionOptions where
  decode? := Json.readRecord? do
    return {
      selector := ← omissible "documentSelector"
      kinds := ← omissible "codeActionKinds"
      resolveProvider := ← omissible "resolveProvider" }
  encode options := .record [
    .optionalField "documentSelector" options.selector,
    .optionalField "codeActionKinds" options.kinds,
    .optionalField "resolveProvider" options.resolveProvider]

/-- The commands that a server executes. -/
structure CommandOptions where
  commands : List String

instance : Wire CommandOptions where
  decode? := Json.readRecord? do return { commands := ← defaulted "commands" [] }
  encode options := .record [.field "commands" options.commands]

/-- Whether a server gives semantic tokens of a whole document, and changes to them. -/
inductive FullTokens
  | flag (enabled : Bool)
  | options (delta : Option Bool)

instance : Wire FullTokens where
  decode? value :=
    (decode? value).map .flag <|>
      value.readNamedRecord? do return .options (← omissible "delta")
  encode
    | .flag enabled => encode enabled
    | .options delta => .record [.optionalField "delta" delta]

/-- Options of semantic tokens. -/
structure SemanticTokensOptions where
  selector : Option DocumentSelector
  id : Option String
  legend : Option Json
  /-- Any value but a refusal means that tokens of a range are given. -/
  range : Option Json
  full : Option FullTokens

instance : Wire SemanticTokensOptions where
  decode? := Json.readRecord? do
    return {
      selector := ← omissible "documentSelector"
      id := ← omissible "id"
      legend := ← omissible "legend"
      range := ← omissible "range"
      full := ← omissible "full" }
  encode options := .record [
    .optionalField "documentSelector" options.selector, .optionalField "id" options.id,
    .optionalField "legend" options.legend, .optionalField "range" options.range,
    .optionalField "full" options.full]

/-- The files whose operations a server wants to hear about. -/
structure FileOperationOptions where
  filters : List FileOperationFilter

instance : Wire FileOperationOptions where
  decode? := Json.readRecord? do return { filters := ← required "filters" }
  encode options := .record [.field "filters" options.filters]

/-- Options of diagnostics on request. -/
structure DiagnosticOptions where
  selector : Option DocumentSelector
  id : Option String
  identifier : Option String
  interFileDependencies : Bool
  workspaceDiagnostics : Bool

instance : Wire DiagnosticOptions where
  decode? := Json.readRecord? do
    return {
      selector := ← omissible "documentSelector"
      id := ← omissible "id"
      identifier := ← omissible "identifier"
      interFileDependencies := ← defaulted "interFileDependencies" false
      workspaceDiagnostics := ← defaulted "workspaceDiagnostics" false }
  encode options := .record [
    .optionalField "documentSelector" options.selector, .optionalField "id" options.id,
    .optionalField "identifier" options.identifier,
    .field "interFileDependencies" options.interFileDependencies,
    .field "workspaceDiagnostics" options.workspaceDiagnostics]

/-- Options of methods whose results can be completed by a second request. -/
structure ResolveOptions where
  selector : Option DocumentSelector
  id : Option String
  resolveProvider : Option Bool

instance : Wire ResolveOptions where
  decode? := Json.readRecord? do
    return {
      selector := ← omissible "documentSelector"
      id := ← omissible "id"
      resolveProvider := ← omissible "resolveProvider" }
  encode options := .record [
    .optionalField "documentSelector" options.selector, .optionalField "id" options.id,
    .optionalField "resolveProvider" options.resolveProvider]

/-- The notebooks that a server wants to hear about. -/
structure NotebookSyncOptions where
  notebookSelector : List Json
  save : Option Bool
  id : Option String

instance : Wire NotebookSyncOptions where
  decode? := Json.readRecord? do
    return {
      notebookSelector := ← defaulted "notebookSelector" []
      save := ← omissible "save"
      id := ← omissible "id" }
  encode options := .record [
    .field "notebookSelector" options.notebookSelector, .optionalField "save" options.save,
    .optionalField "id" options.id]

/-- The options of one registration. -/
inductive RegistrationOptions
  | none
  | plain (value : Json)
  | textDocument (options : DocumentOptions)
  | textDocumentSync (options : SyncOptions)
  | textDocumentChange (options : ChangeOptions)
  | save (options : SaveNoticeOptions)
  | completion (options : CompletionOptions)
  | codeAction (options : CodeActionOptions)
  | executeCommand (options : CommandOptions)
  | semanticTokens (options : SemanticTokensOptions)
  | fileOperation (options : FileOperationOptions)
  | diagnostic (options : DiagnosticOptions)
  | inlayHint (options : ResolveOptions)
  | workspaceSymbol (options : ResolveOptions)
  | codeLens (options : ResolveOptions)
  | documentLink (options : ResolveOptions)
  | notebookSync (options : NotebookSyncOptions)

namespace RegistrationOptions

/-- The name of the form. -/
def formName : RegistrationOptions → String
  | .none => "None"
  | .plain _ => "Plain"
  | .textDocument _ => "TextDocument"
  | .textDocumentSync _ => "TextDocumentSync"
  | .textDocumentChange _ => "TextDocumentChange"
  | .save _ => "Save"
  | .completion _ => "Completion"
  | .codeAction _ => "CodeAction"
  | .executeCommand _ => "ExecuteCommand"
  | .semanticTokens _ => "SemanticTokens"
  | .fileOperation _ => "FileOperation"
  | .diagnostic _ => "Diagnostic"
  | .inlayHint _ => "InlayHint"
  | .workspaceSymbol _ => "WorkspaceSymbol"
  | .codeLens _ => "CodeLens"
  | .documentLink _ => "DocumentLink"
  | .notebookSync _ => "NotebookSync"

/-- The options as they are written. -/
def toJson : RegistrationOptions → Json
  | .none => .null
  | .plain value => value
  | .textDocument options => encode options
  | .textDocumentSync options => encode options
  | .textDocumentChange options => encode options
  | .save options => encode options
  | .completion options => encode options
  | .codeAction options => encode options
  | .executeCommand options => encode options
  | .semanticTokens options => encode options
  | .fileOperation options => encode options
  | .diagnostic options => encode options
  | .inlayHint options => encode options
  | .workspaceSymbol options => encode options
  | .codeLens options => encode options
  | .documentLink options => encode options
  | .notebookSync options => encode options

/-- The documents to which a registration with these options applies; absent, to all. -/
def selector? : RegistrationOptions → Option DocumentSelector
  | .textDocument options => options.selector
  | .textDocumentChange options => options.selector
  | .save options => options.selector
  | .completion options => options.selector
  | .codeAction options => options.selector
  | .semanticTokens options => options.selector
  | .diagnostic options => options.selector
  | .inlayHint options | .codeLens options | .documentLink options => options.selector
  | _ => Option.none

/-- The id that the options themselves carry. -/
def ownId? : RegistrationOptions → Option String
  | .textDocument options => options.id
  | .semanticTokens options => options.id
  | .diagnostic options => options.id
  | .inlayHint options | .codeLens options | .documentLink options => options.id
  | .notebookSync options => options.id
  | _ => Option.none

end RegistrationOptions

end LanguageClient
