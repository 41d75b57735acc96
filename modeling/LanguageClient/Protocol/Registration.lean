import LanguageClient.Json.Record

/-!
# Requests to register and unregister features

What a server sends to grant a feature after the handshake, and to take it back.
-/

namespace LanguageClient

open FieldReader

/-- A grant of a method, with options whose form the method decides. -/
structure Registration where
  id : String
  method : String
  options : Option Json

instance : Wire Registration where
  decode? := Json.readRecord? do
    return {
      id := ← required "id"
      method := ← required "method"
      options := ← omissible "registerOptions" }
  encode registration := .record [
    .field "id" registration.id, .field "method" registration.method,
    .optionalField "registerOptions" registration.options]

/-- The grant that is taken back. -/
structure Unregistration where
  id : String
  method : String

instance : Wire Unregistration where
  decode? := Json.readRecord? do
    return { id := ← required "id", method := ← required "method" }
  encode unregistration :=
    .record [.field "id" unregistration.id, .field "method" unregistration.method]

/-- Several grants at once. -/
structure RegistrationParams where
  registrations : List Registration

instance : Wire RegistrationParams where
  decode? := Json.readRecord? do return { registrations := ← required "registrations" }
  encode params := .record [.field "registrations" params.registrations]

/-- Several grants taken back at once; the name of the field is misspelt in the protocol. -/
structure UnregistrationParams where
  unregistrations : List Unregistration

instance : Wire UnregistrationParams where
  decode? := Json.readRecord? do return { unregistrations := ← required "unregisterations" }
  encode params := .record [.field "unregisterations" params.unregistrations]

end LanguageClient
