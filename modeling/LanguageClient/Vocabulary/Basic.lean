import LanguageClient.Json.Record
import LanguageClient.Text.Quoted

/-!
# Vocabularies of the protocol

A vocabulary is a set of named members, each written on the wire as one raw value. A closed
vocabulary refuses every other value. An open one keeps an unknown value as a custom member, so
that it can be written back as it came.
-/

namespace LanguageClient

/-- The value that stands for a member on the wire. -/
inductive RawValue
  | number (value : UInt32)
  | text (value : String)
  deriving DecidableEq

namespace RawValue

/-- The form of a raw value in an error: digits, or the quoted text. -/
def quoted : RawValue → String
  | .number value => toString value.toNat
  | .text value => Quoted.encode value

instance : Wire RawValue where
  decode?
    | .str value => some (.text value)
    | value => (decode? value : Option UInt32).map .number
  encode
    | .number value => encode value
    | .text value => encode value

end RawValue

/-- A value that a closed vocabulary does not have. -/
structure UnrecognizedValue where
  /-- The name of the vocabulary. -/
  vocabulary : String
  /-- The value, in the form in which it is reported. -/
  value : String
  deriving DecidableEq

namespace UnrecognizedValue

/-- The wording of the refusal. -/
def message (error : UnrecognizedValue) : String :=
  error.vocabulary ++ " has no member with value " ++ error.value ++
    " and does not accept custom values"

end UnrecognizedValue

/-- A set of members with their raw values. -/
class Vocabulary (α : Type) where
  /-- The name under which values are refused. -/
  name : String
  /-- Whether the raw values are numbers rather than texts. -/
  isNumeric : Bool
  /-- The predefined members with their names. -/
  members : List (α × String)
  /-- The raw value of a member. -/
  raw : α → RawValue
  /-- The custom member of an unknown text, if the vocabulary is open. -/
  custom? : Option (String → α)

namespace Vocabulary

variable {α : Type} [Vocabulary α]

/-- The predefined member with this raw value, together with its name. -/
def known? (value : RawValue) : Option (α × String) :=
  (members (α := α)).find? fun entry => raw entry.1 == value

/-- Whether unknown values are kept as custom members. -/
def isOpen (α : Type) [Vocabulary α] : Bool :=
  (custom? (α := α)).isSome

/-- The member that a raw value stands for. -/
def ofRaw (value : RawValue) : Except UnrecognizedValue α :=
  match known? value, custom? (α := α), value with
  | some (member, _), _, _ => .ok member
  | none, some custom, .text text => .ok (custom text)
  | none, _, _ => .error ⟨name α, value.quoted⟩

/-- Whether a member is predefined. -/
def isRecognized (member : α) : Bool :=
  (known? (α := α) (raw member)).isSome

/-- The name of a member; all custom members have one name. -/
def memberName (member : α) : String :=
  match known? (α := α) (raw member) with
  | some (_, name) => name
  | none => "Unrecognized"

/-- Reads the raw value of this vocabulary: a number of 32 bits, or a text. -/
def decodeRaw? (α : Type) [Vocabulary α] (value : Json) : Option RawValue :=
  if isNumeric α then (decode? value).map .number else (decode? value).map .text

/-- The text form of a member's raw value. -/
def text (member : α) : String :=
  match raw member with
  | .number value => toString value.toNat
  | .text value => value

end Vocabulary

/-- Members are written as their raw values. -/
instance (priority := low) {α : Type} [Vocabulary α] : Wire α where
  decode? value := do
    let raw ← Vocabulary.decodeRaw? α value
    (Vocabulary.ofRaw raw).toOption
  encode member := encode (Vocabulary.raw member)

end LanguageClient
