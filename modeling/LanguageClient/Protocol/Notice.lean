import LanguageClient.Protocol.Position
import LanguageClient.Vocabulary.Kinds

/-!
# Parameters of notices about documents

What a client tells a server when a document is opened, changed, saved or closed, and what a server
asks of the settings and says to the user.
-/

namespace LanguageClient

open FieldReader

/-- A document by its address. -/
structure DocumentIdentifier where
  uri : String

instance : Wire DocumentIdentifier where
  decode? := Json.readRecord? do return { uri := ← required "uri" }
  encode document := .record [.field "uri" document.uri]

/-- A version of a document. -/
structure VersionedIdentifier where
  uri : String
  version : Int32

instance : Wire VersionedIdentifier where
  decode? := Json.readRecord? do
    return { uri := ← required "uri", version := ← required "version" }
  encode document := .record [.field "uri" document.uri, .field "version" document.version]

/-- A document with its text. -/
structure DocumentItem where
  uri : String
  language : String
  version : Int32
  text : String

instance : Wire DocumentItem where
  decode? := Json.readRecord? do
    return {
      uri := ← required "uri"
      language := ← required "languageId"
      version := ← required "version"
      text := ← required "text" }
  encode item := .record [
    .field "uri" item.uri, .field "languageId" item.language, .field "version" item.version,
    .field "text" item.text]

/-- A replacement of a range, or of the whole text if there is no range. -/
structure ChangeEvent where
  range : Option Range
  text : String

instance : Wire ChangeEvent where
  decode? := Json.readRecord? do
    return { range := ← nullable "range", text := ← required "text" }
  encode event := .record [.optionalField "range" event.range, .field "text" event.text]

/-- A document is open now. -/
structure DidOpenParams where
  document : DocumentItem

instance : Wire DidOpenParams where
  decode? := Json.readRecord? do return { document := ← required "textDocument" }
  encode params := .record [.field "textDocument" params.document]

/-- A document has changed. -/
structure DidChangeParams where
  document : VersionedIdentifier
  changes : List ChangeEvent

instance : Wire DidChangeParams where
  decode? := Json.readRecord? do
    return { document := ← required "textDocument", changes := ← required "contentChanges" }
  encode params :=
    .record [.field "textDocument" params.document, .field "contentChanges" params.changes]

/-- A document is closed now. -/
structure DidCloseParams where
  document : DocumentIdentifier

instance : Wire DidCloseParams where
  decode? := Json.readRecord? do return { document := ← required "textDocument" }
  encode params := .record [.field "textDocument" params.document]

/-- Why a document is saved. -/
inductive SaveReason
  | manual
  | afterDelay
  | focusOut

instance : Wire SaveReason where
  decode?
    | .int 1 => some .manual
    | .int 2 => some .afterDelay
    | .int 3 => some .focusOut
    | _ => none
  encode
    | .manual => .int 1
    | .afterDelay => .int 2
    | .focusOut => .int 3

/-- A document is about to be saved. -/
structure WillSaveParams where
  document : DocumentIdentifier
  reason : SaveReason

instance : Wire WillSaveParams where
  decode? := Json.readRecord? do
    return { document := ← required "textDocument", reason := ← required "reason" }
  encode params := .record [.field "textDocument" params.document, .field "reason" params.reason]

/-- A document has been saved, with its text where the server wants it. -/
structure DidSaveParams where
  document : DocumentIdentifier
  text : Option String

instance : Wire DidSaveParams where
  decode? := Json.readRecord? do
    return { document := ← required "textDocument", text := ← nullable "text" }
  encode params :=
    .record [.field "textDocument" params.document, .optionalField "text" params.text]

/-- A part of the settings that a server asks for. -/
structure ConfigurationItem where
  scopeUri : Option String
  sectionName : Option String

instance : Wire ConfigurationItem where
  decode? := Json.readRecord? do
    return { scopeUri := ← nullable "scopeUri", sectionName := ← nullable "section" }
  encode item :=
    .record [.optionalField "scopeUri" item.scopeUri, .optionalField "section" item.sectionName]

/-- The parts of the settings that a server asks for. -/
structure ConfigurationParams where
  items : List ConfigurationItem

instance : Wire ConfigurationParams where
  decode? := Json.readRecord? do return { items := ← required "items" }
  encode params := .record [.field "items" params.items]

/-- A message from a server to the user. -/
structure UserMessage where
  severity : Severity
  text : String

instance : Wire UserMessage where
  decode? := Json.readRecord? do
    return { severity := ← required "type", text := ← required "message" }
  encode message := .record [.field "type" message.severity, .field "message" message.text]

end LanguageClient
