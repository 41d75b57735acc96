import LanguageClient.Covering
import LanguageClient.Vocabulary.Kinds

/-!
# What a caller needs of a feature

A request is a list of requirements with different keys. A requirement asks for one or more things,
each of which some grant of the method has to hold.
-/

namespace LanguageClient

/-- A second request, or an extra, that a single switch in the options turns on. -/
inductive ResolveSupport
  | codeAction
  | completionItem
  | completionItemLabelDetails
  | inlayHint
  | workspaceDiagnostic
  | workspaceSymbol
  | codeLens
  | documentLink
  deriving DecidableEq

namespace ResolveSupport

/-- All of them, in the order in which they are listed. -/
def all : List ResolveSupport := [
  .codeAction, .completionItem, .completionItemLabelDetails, .inlayHint, .workspaceDiagnostic,
  .workspaceSymbol, .codeLens, .documentLink]

/-- The name by which a caller asks for it. -/
def name : ResolveSupport → String
  | .codeAction => "code-action-resolve"
  | .completionItem => "completion-item-resolve"
  | .completionItemLabelDetails => "completion-item-label-details"
  | .inlayHint => "inlay-hint-resolve"
  | .workspaceDiagnostic => "workspace-diagnostic"
  | .workspaceSymbol => "workspace-symbol-resolve"
  | .codeLens => "code-lens-resolve"
  | .documentLink => "document-link-resolve"

/-- The name of the member. -/
def memberName : ResolveSupport → String
  | .codeAction => "CodeAction"
  | .completionItem => "CompletionItem"
  | .completionItemLabelDetails => "CompletionItemLabelDetails"
  | .inlayHint => "InlayHint"
  | .workspaceDiagnostic => "WorkspaceDiagnostic"
  | .workspaceSymbol => "WorkspaceSymbol"
  | .codeLens => "CodeLens"
  | .documentLink => "DocumentLink"

/-- The wording of the refusal of an unknown name. -/
def unknownName (text : String) : String :=
  "unknown resolve support '" ++ text ++ "', expected one of: " ++
    ", ".intercalate (all.map name)

/-- Reads a name; underscores count as hyphens. -/
def parse (text : String) : Except String ResolveSupport :=
  let normal := String.ofList (text.toList.map fun c => if c == '_' then '-' else c)
  match all.find? fun support => support.name == normal with
  | some support => .ok support
  | none => .error (unknownName text)

end ResolveSupport

/-- One thing that a grant can hold or not. -/
inductive Need
  /-- The grant applies to a document. -/
  | document (document : DocumentInfo)
  /-- Changes are sent in exactly this form. -/
  | syncKind (kind : SyncKind)
  /-- The text is sent along when a document is saved, or is not. -/
  | includeText (included : Bool)
  /-- The grant applies to the file at an address. -/
  | fileOperation (uri : String)
  | tokens (mode : TokensMode)
  | codeAction (kind : CodeActionKind)
  | command (name : String)
  | resolve (support : ResolveSupport)

/-- What tells requirements apart: a request holds at most one of each key. -/
inductive RequirementKey
  | textDocuments
  | syncKind
  | includeText
  | fileOperations
  | semanticTokens
  | codeActions
  | workspaceCommands
  | resolve (support : ResolveSupport)
  deriving DecidableEq

/-- Something that a caller needs of a feature. -/
inductive Requirement
  | textDocuments (documents : List DocumentInfo)
  | syncKind (kind : SyncKind)
  | includeText (included : Bool)
  | fileOperations (uris : List String)
  | semanticTokens (modes : List TokensMode)
  | codeActions (kinds : List CodeActionKind)
  | workspaceCommands (commands : List String)
  | resolve (support : ResolveSupport)

namespace RequirementKey

/-- The name of a key. -/
def name : RequirementKey → String
  | .textDocuments => "TextDocuments"
  | .syncKind => "SyncKind"
  | .includeText => "IncludeText"
  | .fileOperations => "FileOperations"
  | .semanticTokens => "SemanticTokens"
  | .codeActions => "CodeActions"
  | .workspaceCommands => "WorkspaceCommands"
  | .resolve support => "Resolve:" ++ support.name

end RequirementKey

namespace Requirement

/-- The key of a requirement. -/
def key : Requirement → RequirementKey
  | .textDocuments _ => .textDocuments
  | .syncKind _ => .syncKind
  | .includeText _ => .includeText
  | .fileOperations _ => .fileOperations
  | .semanticTokens _ => .semanticTokens
  | .codeActions _ => .codeActions
  | .workspaceCommands _ => .workspaceCommands
  | .resolve support => .resolve support

/-- Everything that the requirement asks for. -/
def needs : Requirement → List Need
  | .textDocuments documents => documents.map .document
  | .syncKind kind => [.syncKind kind]
  | .includeText included => [.includeText included]
  | .fileOperations uris => uris.map .fileOperation
  | .semanticTokens modes => modes.map .tokens
  | .codeActions kinds => kinds.map .codeAction
  | .workspaceCommands commands => commands.map .command
  | .resolve support => [.resolve support]

end Requirement

/-- The requirements of a caller, in the order in which their keys were first added. -/
structure FeatureRequest where
  requirements : List Requirement

namespace FeatureRequest

/-- The request that is content with any grant. -/
def empty : FeatureRequest := ⟨[]⟩

/-- Puts a requirement in the place of the one with its key, or at the end. -/
def insert (requirement : Requirement) : List Requirement → List Requirement
  | [] => [requirement]
  | other :: rest =>
    if other.key = requirement.key then requirement :: rest else other :: insert requirement rest

/-- Adds a requirement; an earlier one with the same key is given up. -/
def add (request : FeatureRequest) (requirement : Requirement) : FeatureRequest :=
  ⟨insert requirement request.requirements⟩

/-- The request for a grant that applies to a document. -/
def forDocument (uri language : String) : FeatureRequest :=
  empty.add (.textDocuments [⟨uri, some language⟩])

end FeatureRequest

end LanguageClient
