import LanguageClient.Protocol.Handshake
import LanguageClient.Protocol.Message
import LanguageClient.Protocol.Notice
import LanguageClient.Protocol.Registration

/-!
# The types of the protocol by name

A value that was received is checked by reading it as a type of the protocol and writing it again:
that fails if the value does not have the type, and drops what the type does not know.
-/

namespace LanguageClient.Catalogue

/-- The form in which a value of a type is written, if the value has the type. -/
def normalize? (α : Type) [Wire α] (value : Json) : Option Json :=
  (decode? value : Option α).map encode

/-- The types under the names that the protocol gives them. -/
def types : List (String × (Json → Option Json)) := [
  ("Position", normalize? Position), ("Range", normalize? Range),
  ("TextEdit", normalize? TextEdit), ("Location", normalize? Location),
  ("LocationLink", normalize? LocationLink),
  ("DocumentFilter", normalize? DocumentFilter),
  ("TextDocumentFilter", normalize? TextDocumentFilter),
  ("NotebookCellTextDocumentFilter", normalize? NotebookCellFilter),
  ("GlobPattern", normalize? GlobPattern), ("RelativePattern", normalize? RelativePattern),
  ("FileOperationFilter", normalize? FileOperationFilter),
  ("FileOperationPattern", normalize? FilePattern),
  ("FileOperationPatternOptions", normalize? FilePatternOptions),
  ("Registration", normalize? Registration), ("Unregistration", normalize? Unregistration),
  ("RegistrationParams", normalize? RegistrationParams),
  ("UnregistrationParams", normalize? UnregistrationParams),
  ("TextDocumentRegistrationOptions", normalize? DocumentOptions),
  ("TextDocumentChangeRegistrationOptions", normalize? ChangeOptions),
  ("TextDocumentSaveRegistrationOptions", normalize? SaveNoticeOptions),
  ("TextDocumentSyncOptions", normalize? SyncOptions), ("SaveOptions", normalize? SaveOptions),
  ("CompletionOptions", normalize? CompletionOptions),
  ("CodeActionOptions", normalize? CodeActionOptions),
  ("ExecuteCommandOptions", normalize? CommandOptions),
  ("SemanticTokensOptions", normalize? SemanticTokensOptions),
  ("FileOperationRegistrationOptions", normalize? FileOperationOptions),
  ("DiagnosticOptions", normalize? DiagnosticOptions),
  ("NotebookDocumentSyncOptions", normalize? NotebookSyncOptions),
  ("ServerCapabilities", normalize? ServerCapabilities),
  ("WorkspaceFoldersServerCapabilities", normalize? FolderCapabilities),
  ("ClientCapabilities", normalize? ClientCapabilities),
  ("GeneralClientCapabilities", normalize? GeneralSupport),
  ("WindowClientCapabilities", normalize? WindowSupport),
  ("TextDocumentClientCapabilities", normalize? DocumentSupport),
  ("WorkspaceClientCapabilities", normalize? WorkspaceSupport),
  ("InitializeParams", normalize? HandshakeParams),
  ("InitializeResult", normalize? HandshakeResult), ("ClientInfo", normalize? ProgramInfo),
  ("ServerInfo", normalize? ProgramInfo), ("WorkspaceFolder", normalize? WorkspaceFolder),
  ("Request", normalize? Request), ("Response", normalize? Response),
  ("Notification", normalize? Notification), ("RequestId", normalize? RequestId),
  ("ResponseError", normalize? ResponseError),
  ("TextDocumentIdentifier", normalize? DocumentIdentifier),
  ("VersionedTextDocumentIdentifier", normalize? VersionedIdentifier),
  ("TextDocumentItem", normalize? DocumentItem),
  ("TextDocumentContentChangeEvent", normalize? ChangeEvent),
  ("DidOpenTextDocumentParams", normalize? DidOpenParams),
  ("DidChangeTextDocumentParams", normalize? DidChangeParams),
  ("DidCloseTextDocumentParams", normalize? DidCloseParams),
  ("WillSaveTextDocumentParams", normalize? WillSaveParams),
  ("DidSaveTextDocumentParams", normalize? DidSaveParams),
  ("TextDocumentSaveReason", normalize? SaveReason),
  ("ConfigurationItem", normalize? ConfigurationItem),
  ("ConfigurationParams", normalize? ConfigurationParams),
  ("LogMessageParams", normalize? UserMessage), ("TextDocumentSyncKind", normalize? SyncKind),
  ("CodeActionKind", normalize? CodeActionKind),
  ("PositionEncodingKind", normalize? PositionEncoding),
  ("FileOperationPatternKind", normalize? FileKind), ("MessageType", normalize? Severity)]

/-- The check for the type of a name. -/
def find? (name : String) : Option (Json → Option Json) :=
  types.lookup name

end LanguageClient.Catalogue
