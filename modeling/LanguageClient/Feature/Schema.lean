import LanguageClient.Protocol.Capabilities
import LanguageClient.Protocol.Registration

/-!
# Forms of options

Which form the options of a method have, and which capability in the answer to the handshake grants
which method. A value of true or null asks for the defaults of a form.
-/

namespace LanguageClient

/-- The form in which a method is registered. -/
inductive OptionsSchema
  | none
  | plain
  | textDocument
  | textDocumentChange
  | save
  | completion
  | codeAction
  | executeCommand
  | semanticTokens
  | fileOperation
  | diagnostic
  | inlayHint
  | workspaceSymbol
  | codeLens
  | documentLink
  | notebookSync
  deriving DecidableEq

namespace OptionsSchema

/-- All forms with their names. -/
def all : List (OptionsSchema × String) := [
  (.none, "None"), (.plain, "Plain"), (.textDocument, "TextDocument"),
  (.textDocumentChange, "TextDocumentChange"), (.save, "Save"), (.completion, "Completion"),
  (.codeAction, "CodeAction"), (.executeCommand, "ExecuteCommand"),
  (.semanticTokens, "SemanticTokens"), (.fileOperation, "FileOperation"),
  (.diagnostic, "Diagnostic"), (.inlayHint, "InlayHint"), (.workspaceSymbol, "WorkspaceSymbol"),
  (.codeLens, "CodeLens"), (.documentLink, "DocumentLink"), (.notebookSync, "NotebookSync")]

/-- The name of a form. -/
def name (schema : OptionsSchema) : String :=
  (all.lookup schema).getD ""

/-- The form of a name. -/
def ofName? (name : String) : Option OptionsSchema :=
  (all.find? fun entry => entry.2 == name).map Prod.fst

/-- The value that is read for a raw value: an empty object asks for the defaults. -/
def orDefaults : Json → Json
  | .null | .bool true => .obj []
  | value => value

/-- Reads options in a form. -/
def parse? (schema : OptionsSchema) (raw : Json) : Option RegistrationOptions :=
  let value := orDefaults raw
  match schema with
  | .none => some .none
  | .plain => some (.plain raw)
  | .textDocument => (decode? value).map .textDocument
  | .textDocumentChange => (decode? value).map .textDocumentChange
  | .save => (decode? value).map .save
  | .completion => (decode? value).map .completion
  | .codeAction => (decode? value).map .codeAction
  | .executeCommand => (decode? value).map .executeCommand
  | .semanticTokens => (decode? value).map .semanticTokens
  | .fileOperation => (decode? value).map .fileOperation
  | .diagnostic => (decode? value).map .diagnostic
  | .inlayHint => (decode? value).map .inlayHint
  | .workspaceSymbol => (decode? value).map .workspaceSymbol
  | .codeLens => (decode? value).map .codeLens
  | .documentLink => (decode? value).map .documentLink
  | .notebookSync => (decode? value).map .notebookSync

/-- The form of every method that can be registered. -/
def methods : List (String × OptionsSchema) := [
  ("textDocument/didOpen", .textDocument), ("textDocument/didClose", .textDocument),
  ("textDocument/didChange", .textDocumentChange), ("textDocument/didSave", .save),
  ("textDocument/willSave", .textDocument), ("textDocument/willSaveWaitUntil", .textDocument),
  ("textDocument/completion", .completion), ("textDocument/hover", .textDocument),
  ("textDocument/signatureHelp", .textDocument), ("textDocument/declaration", .textDocument),
  ("textDocument/definition", .textDocument), ("textDocument/typeDefinition", .textDocument),
  ("textDocument/implementation", .textDocument), ("textDocument/references", .textDocument),
  ("textDocument/documentHighlight", .textDocument),
  ("textDocument/documentSymbol", .textDocument), ("textDocument/codeAction", .codeAction),
  ("textDocument/codeLens", .codeLens), ("textDocument/documentLink", .documentLink),
  ("textDocument/documentColor", .textDocument), ("textDocument/formatting", .textDocument),
  ("textDocument/rangeFormatting", .textDocument),
  ("textDocument/onTypeFormatting", .textDocument), ("textDocument/rename", .textDocument),
  ("textDocument/foldingRange", .textDocument), ("textDocument/selectionRange", .textDocument),
  ("textDocument/prepareCallHierarchy", .textDocument),
  ("textDocument/linkedEditingRange", .textDocument),
  ("textDocument/semanticTokens", .semanticTokens), ("textDocument/moniker", .textDocument),
  ("textDocument/prepareTypeHierarchy", .textDocument),
  ("textDocument/inlineValue", .textDocument), ("textDocument/inlayHint", .inlayHint),
  ("textDocument/diagnostic", .diagnostic), ("notebookDocument/sync", .notebookSync),
  ("workspace/symbol", .workspaceSymbol), ("workspace/executeCommand", .executeCommand),
  ("workspace/didChangeConfiguration", .plain), ("workspace/didChangeWatchedFiles", .plain),
  ("workspace/didChangeWorkspaceFolders", .none), ("workspace/willCreateFiles", .fileOperation),
  ("workspace/didCreateFiles", .fileOperation), ("workspace/willRenameFiles", .fileOperation),
  ("workspace/didRenameFiles", .fileOperation), ("workspace/willDeleteFiles", .fileOperation),
  ("workspace/didDeleteFiles", .fileOperation)]

/-- The form of a method. -/
def ofMethod? (method : String) : Option OptionsSchema :=
  methods.lookup method

end OptionsSchema

/-- Where the answer to the handshake grants a method. -/
inductive GrantSource
  | provider (provider : Provider)
  | fileOperation (operation : FileOperation)

namespace GrantSource

/-- The raw value of the capability. -/
def value? (capabilities : ServerCapabilities) : GrantSource → Option Json
  | .provider key => capabilities.provider? key
  | .fileOperation key => capabilities.fileOperation? key

end GrantSource

/-- A method with the capability that grants it and the form of its options. -/
structure StaticCapability where
  method : String
  schema : OptionsSchema
  source : GrantSource

namespace StaticCapability

/-- All capabilities that grant one method each, in the order in which they are looked at. -/
def all : List StaticCapability := [
  ⟨"notebookDocument/sync", .notebookSync, .provider .notebookDocumentSync⟩,
  ⟨"textDocument/completion", .completion, .provider .completion⟩,
  ⟨"textDocument/hover", .textDocument, .provider .hover⟩,
  ⟨"textDocument/signatureHelp", .textDocument, .provider .signatureHelp⟩,
  ⟨"textDocument/declaration", .textDocument, .provider .declaration⟩,
  ⟨"textDocument/definition", .textDocument, .provider .definition⟩,
  ⟨"textDocument/typeDefinition", .textDocument, .provider .typeDefinition⟩,
  ⟨"textDocument/implementation", .textDocument, .provider .implementation⟩,
  ⟨"textDocument/references", .textDocument, .provider .references⟩,
  ⟨"textDocument/documentHighlight", .textDocument, .provider .documentHighlight⟩,
  ⟨"textDocument/documentSymbol", .textDocument, .provider .documentSymbol⟩,
  ⟨"textDocument/codeAction", .codeAction, .provider .codeAction⟩,
  ⟨"textDocument/codeLens", .codeLens, .provider .codeLens⟩,
  ⟨"textDocument/documentLink", .documentLink, .provider .documentLink⟩,
  ⟨"textDocument/documentColor", .textDocument, .provider .color⟩,
  ⟨"workspace/symbol", .workspaceSymbol, .provider .workspaceSymbol⟩,
  ⟨"textDocument/formatting", .textDocument, .provider .documentFormatting⟩,
  ⟨"textDocument/rangeFormatting", .textDocument, .provider .documentRangeFormatting⟩,
  ⟨"textDocument/onTypeFormatting", .textDocument, .provider .documentOnTypeFormatting⟩,
  ⟨"textDocument/rename", .textDocument, .provider .rename⟩,
  ⟨"textDocument/foldingRange", .textDocument, .provider .foldingRange⟩,
  ⟨"textDocument/selectionRange", .textDocument, .provider .selectionRange⟩,
  ⟨"workspace/executeCommand", .executeCommand, .provider .executeCommand⟩,
  ⟨"textDocument/prepareCallHierarchy", .textDocument, .provider .callHierarchy⟩,
  ⟨"textDocument/linkedEditingRange", .textDocument, .provider .linkedEditingRange⟩,
  ⟨"textDocument/semanticTokens", .semanticTokens, .provider .semanticTokens⟩,
  ⟨"textDocument/moniker", .textDocument, .provider .moniker⟩,
  ⟨"textDocument/prepareTypeHierarchy", .textDocument, .provider .typeHierarchy⟩,
  ⟨"textDocument/inlineValue", .textDocument, .provider .inlineValue⟩,
  ⟨"textDocument/inlayHint", .inlayHint, .provider .inlayHint⟩,
  ⟨"textDocument/diagnostic", .diagnostic, .provider .diagnostic⟩,
  ⟨"workspace/didCreateFiles", .fileOperation, .fileOperation .didCreate⟩,
  ⟨"workspace/willCreateFiles", .fileOperation, .fileOperation .willCreate⟩,
  ⟨"workspace/didRenameFiles", .fileOperation, .fileOperation .didRename⟩,
  ⟨"workspace/willRenameFiles", .fileOperation, .fileOperation .willRename⟩,
  ⟨"workspace/didDeleteFiles", .fileOperation, .fileOperation .didDelete⟩,
  ⟨"workspace/willDeleteFiles", .fileOperation, .fileOperation .willDelete⟩]

/-- The raw value of the capability. -/
def value? (capability : StaticCapability) (capabilities : ServerCapabilities) : Option Json :=
  capability.source.value? capabilities

end StaticCapability

end LanguageClient
