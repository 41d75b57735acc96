import LanguageClient.Json.Parser
import LanguageClient.Json.Printer
import LanguageClient.Json.Record

/-!
# Messages

Requests, responses and notifications. Which of the three a message is depends only on the presence
of an id and of a method; the value of an id may be null.
-/

namespace LanguageClient

open FieldReader

/-- What pairs a response with its request. -/
inductive RequestId
  | number (value : UInt64)
  | text (value : String)
  deriving DecidableEq

instance : Wire RequestId where
  decode? value := (decode? value).map .number <|> (decode? value).map .text
  encode
    | .number value => encode value
    | .text value => encode value

/-- The version of the protocol that every message names. -/
def protocolVersion : String := "2.0"

/-- A question that asks for a response. -/
structure Request where
  version : String
  id : RequestId
  method : String
  params : Option Json

/-- The fields of a request in the order of their declaration. -/
def Request.fields (request : Request) : List WrittenField := [
  .field "jsonrpc" request.version, .field "id" request.id, .field "method" request.method,
  .optionalField "params" request.params]

instance : Wire Request where
  decode? := Json.readRecord? do
    return {
      version := ← required "jsonrpc"
      id := ← required "id"
      method := ← required "method"
      params := ← nullable "params" }
  encode request := .record request.fields

/-- Why a request failed. -/
structure ResponseError where
  code : Int32
  message : String
  data : Option Json

namespace ResponseError

/-- The fields of an error in the order of their declaration. -/
def fields (error : ResponseError) : List WrittenField := [
  .field "code" error.code, .field "message" error.message, .optionalField "data" error.data]

instance : Wire ResponseError where
  decode? := Json.readRecord? do
    return {
      code := ← required "code"
      message := ← required "message"
      data := ← nullable "data" }
  encode error := .record error.fields

/-- An error without further data. -/
def plain (code : Int32) (message : String) : ResponseError :=
  ⟨code, message, none⟩

/-- The code in brackets, and the message. -/
def display (error : ResponseError) : String :=
  "[" ++ String.ofList (Json.printInt error.code.toInt) ++ "] " ++ error.message

/-- The method of a request is not known. -/
def methodNotFound : Int32 := -32601

/-- The parameters of a request cannot be used. -/
def invalidParams : Int32 := -32602

/-- A request was given up. -/
def requestCancelled : Int32 := -32800

/-- The connection went away while a request was in flight. -/
def serverTerminated : Int32 := -32099

end ResponseError

/-- The answer to a request: a result, or an error, which counts if both are present. -/
structure Response where
  version : String
  id : Option RequestId
  result : Option Json
  error : Option ResponseError

namespace Response

/-- The fields of a response in the order of their declaration, with its error as it is written. -/
def fields (response : Response) (error : Option Json) : List WrittenField := [
  .field "jsonrpc" response.version, .field "id" response.id,
  .optionalField "result" response.result, ⟨"error", error⟩]

instance : Wire Response where
  decode? := Json.readRecord? do
    return {
      version := ← required "jsonrpc"
      id := ← nullable "id"
      result := ← nullable "result"
      error := ← nullable "error" }
  encode response := .record (response.fields (response.error.map encode))

/-- The answer that carries a result. -/
def success (id : RequestId) (result : Json) : Response :=
  ⟨protocolVersion, some id, some result, none⟩

/-- The answer that carries an error. -/
def failure (id : RequestId) (error : ResponseError) : Response :=
  ⟨protocolVersion, some id, none, some error⟩

/-- What the answer says; an absent result is null. -/
def outcome (response : Response) : Except ResponseError Json :=
  match response.error with
  | some error => .error error
  | none => .ok (response.result.getD .null)

end Response

/-- A message that asks for no response. -/
structure Notification where
  version : String
  method : String
  params : Option Json

/-- The fields of a notification in the order of their declaration. -/
def Notification.fields (notification : Notification) : List WrittenField := [
  .field "jsonrpc" notification.version, .field "method" notification.method,
  .optionalField "params" notification.params]

instance : Wire Notification where
  decode? := Json.readRecord? do
    return {
      version := ← required "jsonrpc"
      method := ← required "method"
      params := ← nullable "params" }
  encode notification := .record notification.fields

/-- A message of any kind. -/
inductive Message
  | response (response : Response)
  | request (request : Request)
  | notification (notification : Notification)

/-- Why a text is no message. -/
inductive MessageError
  /-- The text is not JSON. -/
  | notJson
  /-- A field of the message is missing or has the wrong type. -/
  | malformed
  /-- There is neither an id nor a method. -/
  | unknownKind
  deriving DecidableEq

namespace Message

/-- Reads a message; its kind is decided before its fields are looked at. -/
def ofJson (value : Json) : Except MessageError Message :=
  let read {α : Type} [Wire α] (wrap : α → Message) : Except MessageError Message :=
    match decode? value with
    | some message => .ok (wrap message)
    | none => .error .malformed
  match (value.get? "id").isSome, (value.get? "method").isSome with
  | true, true => read .request
  | true, false => read .response
  | false, true => read .notification
  | false, false => .error .unknownKind

/-- Reads the text of a message. -/
def parse (text : String) : Except MessageError Message :=
  match Json.parse? text with
  | some value => ofJson value
  | none => .error .notJson

/-- The message as a value. -/
def toJson : Message → Json
  | .response answer => encode answer
  | .request question => encode question
  | .notification notice => encode notice

/-- The message as its text is written: the members of the message and of an error stand in the
order of their declaration. -/
def written : Message → Json
  | .response answer => .declared (answer.fields (answer.error.map fun error =>
      .declared error.fields))
  | .request question => .declared question.fields
  | .notification notice => .declared notice.fields

/-- The text of a message. -/
def print (message : Message) : String :=
  message.written.print

end Message

end LanguageClient
