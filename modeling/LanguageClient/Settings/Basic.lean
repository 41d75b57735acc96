import LanguageClient.Timeouts
import LanguageClient.Vocabulary.Kinds

/-!
# Settings

The time limits and the unit of positions that a client uses, and the language servers it can
start. Some servers are known without being configured; a configured server of the same name takes
their place.
-/

namespace LanguageClient

/-- How a client behaves. -/
structure ClientSettings where
  requestSeconds : UInt64
  /-- Zero means that a feature is waited for without a limit. -/
  featureSeconds : UInt64
  shutdownSeconds : UInt64
  /-- The unit of positions, as it is written in the settings. -/
  encoding : String

namespace ClientSettings

/-- What counts where nothing is configured. -/
def standard : ClientSettings := ⟨30, 10, 5, "utf-16"⟩

instance : Wire ClientSettings where
  decode? := Json.readRecord? do
    let requestSeconds ← .defaulted "request_timeout_secs" standard.requestSeconds
    let featureSeconds ← .defaulted "feature_timeout_secs" standard.featureSeconds
    let shutdownSeconds ← .defaulted "shutdown_timeout_secs" standard.shutdownSeconds
    let encoding ← .defaulted "position_encoding" standard.encoding
    return { requestSeconds, featureSeconds, shutdownSeconds, encoding }
  encode settings := Json.record [
    .field "request_timeout_secs" settings.requestSeconds,
    .field "feature_timeout_secs" settings.featureSeconds,
    .field "shutdown_timeout_secs" settings.shutdownSeconds,
    .field "position_encoding" settings.encoding]

/-- The unit of positions that is written in the settings, in any case. -/
def positionEncoding (settings : ClientSettings) : PositionEncoding :=
  let lower := String.ofList (settings.encoding.toList.map Char.toLower)
  (Vocabulary.ofRaw (.text lower)).toOption.getD .utf16

/-- The time limits. -/
def timeouts (settings : ClientSettings) : Timeouts where
  requestSeconds := settings.requestSeconds.toNat
  feature :=
    if settings.featureSeconds == 0 then none
    else some (.ofSeconds settings.featureSeconds.toNat)
  shutdown := .ofSeconds settings.shutdownSeconds.toNat

end ClientSettings

/-- How a language server is started. -/
structure ServerSettings where
  command : String
  args : List String
  /-- The languages the server is used for. -/
  languages : List String
  /-- What the server is given in the handshake. -/
  options : Option Json

namespace ServerSettings

/-- Reads how a server is started; options that are null count as `ofNull`. -/
def read? (ofNull : Option Json) : Json → Option ServerSettings :=
  Json.readRecord? do
    let command ← .required "command"
    let args ← .defaulted "args" []
    let languages ← .defaulted "language_ids" []
    let options ← FieldReader.next "initialization_options"
    let options := options.bind fun value => if value.isNull then ofNull else some value
    return { command, args, languages, options }

instance : Wire ServerSettings where
  decode? := read? none
  encode settings := Json.record [
    .field "command" settings.command,
    .field "args" settings.args,
    .field "language_ids" settings.languages,
    .optionalField "initialization_options" settings.options]

/-- The start of a server by a command line. -/
def ofCommand (command : String) (args : List String) : ServerSettings :=
  ⟨command, args, [], none⟩

/-- The servers that are known by name, in ascending order of their names. -/
def wellKnown : List (String × ServerSettings) := [
  ("clangd", ⟨"clangd", [], ["c", "cpp"], none⟩),
  ("gopls", ⟨"gopls", [], ["go"], none⟩),
  ("pyright", ⟨"pyright-langserver", ["--stdio"], ["python"], none⟩),
  ("rust-analyzer", ⟨"rust-analyzer", [], ["rust"], none⟩),
  ("typescript-language-server",
    ⟨"typescript-language-server", ["--stdio"], ["typescript", "javascript"], none⟩)]

end ServerSettings

/-- The settings as a whole. -/
structure Settings where
  client : ClientSettings
  /-- The configured servers, in ascending order of their names. -/
  servers : List (String × ServerSettings)

namespace Settings

/-- Settings where nothing is configured. -/
def standard : Settings := ⟨.standard, []⟩

/-- The servers under their names. -/
structure ServerTable where
  entries : List (String × ServerSettings)

/-- Reads servers under their names; options that are null count as `ofNull`. -/
def ServerTable.read? (ofNull : Option Json) : Json → Option ServerTable
  | .obj fields =>
    (fields.mapM fun field => (ServerSettings.read? ofNull field.2).map (field.1, ·)).map
      ServerTable.mk
  | _ => none

/-- Reads the settings as a whole; options of servers that are null count as `ofNull`. -/
def read? (ofNull : Option Json) : Json → Option Settings :=
  Json.readRecord? do
    let client ← .defaulted "client" ClientSettings.standard
    let servers ←
      match ← FieldReader.next "servers" with
      | some value => (ServerTable.read? ofNull value : Option ServerTable)
      | none => pure ⟨[]⟩
    return { client, servers := servers.entries }

instance : Wire Settings where
  decode? := read? none
  encode settings := Json.record [
    .field "client" settings.client,
    .field "servers" (Json.object (settings.servers.map fun entry => (entry.1, encode entry.2)))]

/-- How the server of a name is started: as configured, or as it is known. -/
def server? (settings : Settings) (name : String) : Option ServerSettings :=
  match settings.servers.lookup name with
  | some server => some server
  | none => ServerSettings.wellKnown.lookup name

/-- The configured and the known servers, each name once, in ascending order. -/
def serverNames (settings : Settings) : List String :=
  ((ServerSettings.wellKnown ++ settings.servers).foldl
    (fun sorted server => insertField server.1 () sorted) []).map Prod.fst

end Settings

end LanguageClient
