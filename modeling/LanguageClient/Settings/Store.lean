import LanguageClient.FileTree
import LanguageClient.Settings.Basic
import LanguageClient.Settings.Error
import LanguageClient.Text.Blank
import LanguageClient.Toml.Moment
import LanguageClient.Toml.Overlay
import LanguageClient.Toml.Parser

/-!
# Where settings are kept

The settings of a user are laid under those of a project, and variables of the environment override
both. A file that does not exist counts as an empty one.
-/

namespace LanguageClient

/-- The variables of the environment. -/
abbrev Environment := List (String × String)

namespace Settings

/-- The variable that overrides the limit for requests. -/
def requestVariable : String := "LSP_CONDUCTOR_REQUEST_TIMEOUT"

/-- The variable that overrides the limit for waiting for a feature. -/
def featureVariable : String := "LSP_CONDUCTOR_FEATURE_TIMEOUT"

/-- The name of a file of settings. -/
def fileName : String := "config.toml"

/-- The folder of the settings of a user. -/
def userFolder (environment : Environment) : String :=
  match environment.lookup "XDG_CONFIG_HOME" with
  | some folder => folder
  | none =>
    match environment.lookup "HOME" with
    | some home => if home == "" then "." else Path.join home ".config"
    | none => "."

/-- The file with the settings of a user. -/
def userPath (environment : Environment) : String :=
  Path.join (Path.join (userFolder environment) "lsp-conductor") fileName

/-- The file with the settings of the project in a folder. -/
def projectPath (root : String) : String :=
  Path.join (Path.join root ".lsp-conductor") fileName

/-- The file for a level: that of the user, or that of the project. -/
def path (environment : Environment) (root : String) (ofUser : Bool) : String :=
  if ofUser then userPath environment else projectPath root

/-- Reads settings from the document of one or more files, where a moment counts as the text that
writes it. Options are null where the document has a number that JSON has not, and are kept. -/
def ofToml? (document : Toml) : Option Settings :=
  read? (some .null) (document.toJson .str)

/-- A moment that does not count as a text: an object with the text as its only member. -/
def momentObject (written : String) : Json :=
  .obj [(Toml.momentKey, .str written)]

/-- The fields of a record that is written as a list, without the items that follow them. -/
def fieldsAlone (count : Nat) : Json → Json
  | .arr items => .arr (items.take count)
  | value => value

/-- The settings whose records have no items after their fields. -/
def recordsAlone : Json → Json
  | .obj members => .obj <| members.map fun
    | ("client", client) => ("client", fieldsAlone 4 client)
    | ("servers", .obj servers) =>
      ("servers", .obj (servers.map fun server => (server.1, fieldsAlone 4 server.2)))
    | member => member
  | value => value

/-- Reads settings from a text that is not laid over another one. Here a moment is no text, and a
list that writes a record may have more items than the record has fields. -/
def parse (text : String) : Except SettingsError Settings :=
  match (Toml.parse? text).bind fun document =>
    read? (some .null) (recordsAlone (document.toJson momentObject)) with
  | some settings => .ok settings
  | none => .error .malformed

/-- The document in a file, where tables may stand for moments. -/
def readDocument (files : FileTree) (path : String) : Except SettingsError Toml :=
  if !files.isPresent path then .ok (.table [])
  else
    match files.readText path with
    | .error error => .error (.inaccessible error)
    | .ok text =>
      match (Toml.parse? text).bind Toml.documentWithMoments? with
      | some document => .ok document
      | none => .error .malformed

/-- The seconds that a variable gives, blanks around the numeral aside. -/
def secondsOf (environment : Environment) (name : String) (configured : UInt64) :
    Except SettingsError UInt64 :=
  match environment.lookup name with
  | none => .ok configured
  | some value =>
    match Numeral.read 64 (trimBlank value) with
    | .ok seconds => .ok (UInt64.ofNat seconds)
    | .error error =>
      .error (.invalidValue name ("expected seconds, got '" ++ value ++ "': " ++ error.message))

/-- The settings with the overrides of the environment; the limit for requests comes first. -/
def withOverrides (settings : Settings) (environment : Environment) :
    Except SettingsError Settings := do
  let requestSeconds ← secondsOf environment requestVariable settings.client.requestSeconds
  let featureSeconds ← secondsOf environment featureVariable settings.client.featureSeconds
  return { settings with client := { settings.client with requestSeconds, featureSeconds } }

/-- The settings of a user alone, as their file gives them, or the settings that are in effect for
a project. -/
def load (environment : Environment) (files : FileTree) (root : String) (ofUser : Bool) :
    Except SettingsError Settings := do
  let user ← readDocument files (userPath environment)
  let document ←
    if ofUser then pure user
    else pure (user.overlay (← readDocument files (projectPath root)))
  match ofToml? document with
  | none => .error .malformed
  | some settings => if ofUser then .ok settings else settings.withOverrides environment

/-- The text of a file with which a user or a project starts. -/
def standardText : String :=
  "[client]\n" ++
  "request_timeout_secs = 30\n" ++
  "feature_timeout_secs = 10\n" ++
  "shutdown_timeout_secs = 5\n" ++
  "position_encoding = \"utf-16\"\n" ++
  "\n" ++
  "[servers]\n"

/-- Creates the file for a level; an existing one is only replaced on demand. -/
def create (environment : Environment) (files : FileTree) (root : String)
    (ofUser replace : Bool) : Except SettingsError (FileTree × String) :=
  let path := path environment root ofUser
  if files.isPresent path && !replace then
    .error (.invalidValue "config"
      ("Config already exists: " ++ path ++ ". Use --force to overwrite."))
  else
    match files.writeAlong path (Utf8.encode standardText) with
    | .ok files => .ok (files, path)
    | .error error => .error (.inaccessible error)

end Settings

end LanguageClient
