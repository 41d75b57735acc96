import LanguageClient.Feature.Error
import LanguageClient.Feature.Schema

/-!
# Grants of features

A grant says that a server serves a method, for which documents and with which options. Grants come
from the answer to the handshake and from later registrations, and look the same in both cases.
-/

namespace LanguageClient

/-- A method that a server serves. -/
structure Grant where
  /-- The id under which the grant can be taken back. -/
  id : Option String
  method : String
  /-- The documents for which the method is served; absent, for all. -/
  selector : Option DocumentSelector
  options : RegistrationOptions

namespace Grant

/-- The grant of a method with options; an id in the options counts before the given one. -/
def ofOptions (id : Option String) (method : String) (options : RegistrationOptions) : Grant :=
  ⟨options.ownId? <|> id, method, options.selector?, options⟩

/-- The grant as it is written. -/
def toJson (grant : Grant) : Json :=
  .record [
    .field "id" grant.id, .field "method" grant.method,
    .optionalField "documentSelector" grant.selector, .field "options" grant.options.toJson]

/-- The method that announces changes of the workspace folders. -/
def foldersMethod : String := "workspace/didChangeWorkspaceFolders"

/-- Whether a raw capability grants anything. -/
def isGranted : Json → Bool
  | .null | .bool false => false
  | _ => true

/-- The grants that options about the life of documents stand for. -/
def ofSyncOptions (options : SyncOptions) : List Grant :=
  let sync (method : String) := ofOptions none method (.textDocumentSync options)
  let openClose :=
    if options.openClose == some true then
      [sync "textDocument/didOpen", sync "textDocument/didClose"]
    else []
  let save := match options.save with
    | some save =>
      if save.isEnabled then
        [ofOptions none "textDocument/didSave" (.save ⟨none, some save.includeText⟩)]
      else []
    | none => []
  let willSave := if options.willSave == some true then [sync "textDocument/willSave"] else []
  let willSaveWaitUntil :=
    if options.willSaveWaitUntil == some true then [sync "textDocument/willSaveWaitUntil"] else []
  let change := match options.change with
    | none | some .none => []
    | some _ => [sync "textDocument/didChange"]
  openClose ++ save ++ willSave ++ willSaveWaitUntil ++ change

/-- The grants of a shorthand or of full options; the shorthand `none` grants nothing. -/
def ofSync : DocumentSync → List Grant
  | .kind .none => []
  | sync => ofSyncOptions sync.toOptions

/-- The grant of one capability; options that cannot be read are kept raw. -/
def ofStatic? (capabilities : ServerCapabilities) (capability : StaticCapability) :
    Option Grant := do
  let raw ← capability.value? capabilities
  if isGranted raw then
    some (ofOptions none capability.method ((capability.schema.parse? raw).getD (.plain raw)))
  else none

/-- The grant that an id for changes of the workspace folders stands for. -/
def ofFolders (capabilities : ServerCapabilities) : List Grant :=
  match capabilities.workspace.bind WorkspaceCapabilities.folders with
  | some ⟨_, some (.id id)⟩ => [⟨some id, foldersMethod, none, .none⟩]
  | _ => []

/-- All grants in the answer to the handshake. -/
def ofCapabilities (capabilities : ServerCapabilities) : List Grant :=
  (capabilities.documentSync.map ofSync).getD [] ++
    StaticCapability.all.filterMap (ofStatic? capabilities) ++ ofFolders capabilities

/-- The grant that a later registration makes. -/
def ofRegistration (registration : Registration) : Except FeatureError Grant :=
  match OptionsSchema.ofMethod? registration.method with
  | none => .error (.unknownMethod registration.method)
  | some schema =>
    match schema.parse? (registration.options.getD .null) with
    | none => .error (.invalidOptions registration.method)
    | some options => .ok (ofOptions (some registration.id) registration.method options)

end Grant

end LanguageClient
