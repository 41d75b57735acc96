import LanguageClient.Feature.Error
import LanguageClient.FileTree
import LanguageClient.Protocol.Message

/-!
# Failures of a client

Why a request, a notice or the start of a server fails, with the code that stands for the failure
and whether it makes sense to try again.
-/

namespace LanguageClient

/-- A failure of a client. -/
inductive ClientError
  /-- The server could not be started. -/
  | serverStart (reason : String)
  /-- Nothing can be sent to the server. -/
  | notConnected
  /-- The connection to the server went away. -/
  | terminated (server : String)
  /-- No answer came in time. -/
  | timeout (detail : String)
  /-- The request was given up. -/
  | cancelled
  /-- The server answered with an error. -/
  | serverError (code : Int32) (message : String)
  /-- The answer does not have the expected form. -/
  | badAnswer
  /-- Waiting for a feature failed. -/
  | feature (error : FeatureError)
  deriving DecidableEq

namespace ClientError

/-- The failure to start a command. -/
def cannotStart (command : String) (error : FileError) : ClientError :=
  .serverStart (command ++ ": " ++ error.systemMessage)

/-- The failure of a request whose limit has passed. -/
def requestTimeout (server method : String) : ClientError :=
  .timeout (server ++ " '" ++ method ++
    "' timed out. The language server may be busy or unresponsive")

/-- The failure that an error in a response stands for. -/
def ofResponse (error : ResponseError) : ClientError :=
  .serverError error.code error.message

/-- The wording of a failure, where it has one of its own. -/
def message? : ClientError → Option String
  | .serverStart reason => some ("Failed to start server: " ++ reason)
  | .notConnected => some "Server not connected"
  | .terminated name => some (name ++ " language server terminated unexpectedly")
  | .timeout detail => some detail
  | .cancelled => some "Request cancelled"
  | .serverError number message =>
    some ("Server error [" ++ String.ofList (Json.printInt number.toInt) ++ "]: " ++ message)
  | .badAnswer => none
  | .feature error => some error.message

/-- The code that stands for a failure. -/
def code : ClientError → Int32
  | .serverError number _ => number
  | .terminated _ => ResponseError.serverTerminated
  | .timeout _ => -32001
  | .notConnected => -32003
  | .cancelled => ResponseError.requestCancelled
  | _ => -32000

/-- Whether the request was given up, here or by the server. -/
def isCancelled : ClientError → Bool
  | .cancelled => true
  | .serverError number _ => number == ResponseError.requestCancelled
  | _ => false

/-- Whether it makes sense to try again. -/
def isRecoverable : ClientError → Bool
  | .notConnected | .timeout _ | .cancelled => true
  | error => error.isCancelled

end ClientError

end LanguageClient
