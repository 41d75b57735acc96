import LanguageClient.Vocabulary.Basic
import LanguageClient.Text.Numeral

/-!
# The vocabularies in use

How documents are synchronized, kinds of code actions, units of positions, kinds of files,
severities of messages, and flavours of semantic tokens.
-/

namespace LanguageClient

/-- How the content of a document is sent when it changes. -/
inductive SyncKind
  | none
  | full
  | incremental
  deriving DecidableEq

instance : Vocabulary SyncKind where
  name := "TextDocumentSyncKind"
  isNumeric := true
  members := [(.none, "None"), (.full, "Full"), (.incremental, "Incremental")]
  raw
    | .none => .number 0
    | .full => .number 1
    | .incremental => .number 2
  custom? := Option.none

namespace SyncKind

/-- Reads a kind from its name in any case, or from its number. -/
def parse (text : String) : Except UnrecognizedValue SyncKind :=
  let lower := String.ofList (text.toList.map Char.toLower)
  if lower == "none" then .ok .none
  else if lower == "full" then .ok .full
  else if lower == "incremental" then .ok .incremental
  else
    match Numeral.read 32 lower with
    | .ok number => Vocabulary.ofRaw (.number (UInt32.ofNat number))
    | .error _ => .error ⟨Vocabulary.name SyncKind, lower⟩

end SyncKind

/-- What a code action does. -/
inductive CodeActionKind
  | empty
  | quickFix
  | refactor
  | refactorExtract
  | refactorInline
  | refactorRewrite
  | source
  | sourceOrganizeImports
  | sourceFixAll
  | custom (text : String)
  deriving DecidableEq, Hashable

instance : Vocabulary CodeActionKind where
  name := "CodeActionKind"
  isNumeric := false
  members := [
    (.empty, "Empty"), (.quickFix, "QuickFix"), (.refactor, "Refactor"),
    (.refactorExtract, "RefactorExtract"), (.refactorInline, "RefactorInline"),
    (.refactorRewrite, "RefactorRewrite"), (.source, "Source"),
    (.sourceOrganizeImports, "SourceOrganizeImports"), (.sourceFixAll, "SourceFixAll")]
  raw
    | .empty => .text ""
    | .quickFix => .text "quickfix"
    | .refactor => .text "refactor"
    | .refactorExtract => .text "refactor.extract"
    | .refactorInline => .text "refactor.inline"
    | .refactorRewrite => .text "refactor.rewrite"
    | .source => .text "source"
    | .sourceOrganizeImports => .text "source.organizeImports"
    | .sourceFixAll => .text "source.fixAll"
    | .custom text => .text text
  custom? := some .custom

/-- The unit in which the characters of a line are counted. -/
inductive PositionEncoding
  | utf8
  | utf16
  | utf32
  | custom (text : String)
  deriving DecidableEq, Hashable

instance : Vocabulary PositionEncoding where
  name := "PositionEncodingKind"
  isNumeric := false
  members := [(.utf8, "Utf8"), (.utf16, "Utf16"), (.utf32, "Utf32")]
  raw
    | .utf8 => .text "utf-8"
    | .utf16 => .text "utf-16"
    | .utf32 => .text "utf-32"
    | .custom text => .text text
  custom? := some .custom

/-- Whether a file pattern is about files or about folders. -/
inductive FileKind
  | file
  | folder
  deriving DecidableEq

instance : Vocabulary FileKind where
  name := "FileOperationPatternKind"
  isNumeric := false
  members := [(.file, "File"), (.folder, "Folder")]
  raw
    | .file => .text "file"
    | .folder => .text "folder"
  custom? := none

/-- How serious a message to the user is. -/
inductive Severity
  | error
  | warning
  | info
  | log
  | debug
  deriving DecidableEq

instance : Vocabulary Severity where
  name := "MessageType"
  isNumeric := true
  members := [
    (.error, "Error"), (.warning, "Warning"), (.info, "Info"), (.log, "Log"), (.debug, "Debug")]
  raw
    | .error => .number 1
    | .warning => .number 2
    | .info => .number 3
    | .log => .number 4
    | .debug => .number 5
  custom? := none

namespace Severity

/-- The level at which a message to the user is logged. -/
def logLevel : Severity → String
  | .error => "ERROR"
  | .warning => "WARN"
  | .info => "INFO"
  | .log | .debug => "DEBUG"

end Severity

/-- The forms in which semantic tokens can be requested. -/
inductive TokensMode
  | full
  | fullDelta
  | range
  deriving DecidableEq

instance : Vocabulary TokensMode where
  name := "SemanticTokensMode"
  isNumeric := false
  members := [(.full, "Full"), (.fullDelta, "FullDelta"), (.range, "Range")]
  raw
    | .full => .text "full"
    | .fullDelta => .text "full/delta"
    | .range => .text "range"
  custom? := none

end LanguageClient
