import LanguageClient.Duration

/-!
# Failures of features

Why a registration is refused, and why waiting for a feature ends without it.
-/

namespace LanguageClient

/-- A failure of a registration or of waiting for one. -/
inductive FeatureError
  /-- The method cannot be registered. -/
  | unknownMethod (method : String)
  /-- The options do not have the form that the method asks for. -/
  | invalidOptions (method : String)
  /-- The server has not answered the handshake yet. -/
  | notReady (method : String)
  /-- The method was not registered in time. -/
  | timeout (method : String) (limit : Duration)
  /-- The connection closed while the method was waited for. -/
  | abandoned (method : String)
  deriving DecidableEq

namespace FeatureError

/-- What stands for the detailed report about options that cannot be read. -/
def unreadable : String := "<serde>"

/-- The wording of a failure. -/
def message : FeatureError → String
  | .unknownMethod method =>
    "No registration options are known for method '" ++ method ++ "'"
  | .invalidOptions method =>
    "Invalid registration options for '" ++ method ++ "': " ++ unreadable
  | .notReady method =>
    "Dynamic registration for '" ++ method ++ "' received before server capabilities"
  | .timeout method limit =>
    "Feature '" ++ method ++ "' was not registered within " ++ limit.display
  | .abandoned method =>
    "Stopped waiting for feature '" ++ method ++ "': the server connection closed"

end FeatureError

end LanguageClient
