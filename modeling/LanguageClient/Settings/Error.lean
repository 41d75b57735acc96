import LanguageClient.FileTree

/-!
# Faults of the settings
-/

namespace LanguageClient

/-- Why settings cannot be read or written. -/
inductive SettingsError
  /-- A file is no document of settings, or its values have the wrong types. -/
  | malformed
  /-- A single value is not acceptable. -/
  | invalidValue (key explanation : String)
  /-- A file cannot be read or written. -/
  | inaccessible (error : FileError)
  deriving DecidableEq

namespace SettingsError

/-- The wording, where it is fixed. -/
def message? : SettingsError → Option String
  | .malformed => none
  | .invalidValue key explanation => some ("Invalid value for '" ++ key ++ "': " ++ explanation)
  | .inaccessible _ => none

/-- The wording, that of the system included. -/
def message : SettingsError → String
  | .inaccessible error => error.systemMessage
  | error => error.message?.getD ""

end SettingsError

end LanguageClient
