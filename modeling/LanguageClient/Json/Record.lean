import LanguageClient.Json.Basic

/-!
# Reading values by their type

A type of the protocol has one reading and one writing. A record is read from an object by the
names of its fields, or from an array by their order; the two forms differ in what may be missing,
so a field says which of four kinds it has. A choice between several forms takes the first one that
can be read.
-/

namespace LanguageClient

/-- A type that is read from and written as JSON. -/
class Wire (α : Type) where
  /-- Reads a value; nothing is converted between texts, numbers and truth values. -/
  decode? : Json → Option α
  /-- Writes a value. -/
  encode : α → Json

export Wire (decode? encode)

instance : Wire Json where
  decode? value := some value
  encode value := value

instance : Wire Bool where
  decode?
    | .bool value => some value
    | _ => none
  encode value := .bool value

instance : Wire String where
  decode?
    | .str text => some text
    | _ => none
  encode text := .str text

/-- Reads an integer that lies between two bounds. -/
def Json.intWithin? (low high : Int) : Json → Option Int
  | .int value => if low ≤ value ∧ value ≤ high then some value else none
  | _ => none

instance : Wire UInt32 where
  decode? value := (value.intWithin? 0 4294967295).map fun n => UInt32.ofNat n.toNat
  encode value := .int value.toNat

instance : Wire Int32 where
  decode? value := (value.intWithin? (-2147483648) 2147483647).map Int32.ofInt
  encode value := .int value.toInt

instance : Wire UInt64 where
  decode? value := (value.intWithin? 0 18446744073709551615).map fun n => UInt64.ofNat n.toNat
  encode value := .int value.toNat

instance {α : Type} [Wire α] : Wire (List α) where
  decode?
    | .arr items => items.mapM decode?
    | _ => none
  encode items := .arr (items.map encode)

/-- Null means that the value is absent. -/
instance {α : Type} [Wire α] : Wire (Option α) where
  decode?
    | .null => some none
    | value => (decode? value).map some
  encode
    | none => .null
    | some value => encode value

/-- The fields of a record as they stand on the wire. -/
inductive Members
  | named (fields : List (String × Json))
  | listed (items : List Json)

/-- A reader of some fields of a record, in the order of their declaration. -/
abbrev FieldReader := StateT Members Option

namespace FieldReader

/-- The next field: what stands under its name, or the next item of an array, which is taken off. -/
def next (name : String) : FieldReader (Option Json) := fun members =>
  match members with
  | .named fields => some (Json.find? name fields, members)
  | .listed [] => some (none, members)
  | .listed (item :: rest) => some (some item, .listed rest)

/-- Whether the record is read from an array. -/
def isListed : FieldReader Bool := fun members =>
  match members with
  | .named _ => some (false, members)
  | .listed _ => some (true, members)

/-- A field that has to be present. -/
def required {α : Type} [Wire α] (name : String) : FieldReader α := do
  match ← next name with
  | some value => (decode? value : Option α)
  | none => failure

/-- A field that may be null, or be missing from an object; in an array it has its place. -/
def nullable {α : Type} [Wire α] (name : String) : FieldReader (Option α) := do
  match ← next name with
  | some value => (decode? value : Option (Option α))
  | none => if ← isListed then failure else pure none

/-- A field that may be null or missing in both forms. -/
def omissible {α : Type} [Wire α] (name : String) : FieldReader (Option α) := do
  match ← next name with
  | some value => (decode? value : Option (Option α))
  | none => pure none

/-- A field that has a default when it is missing, but may not be null. -/
def defaulted {α : Type} [Wire α] (name : String) (default : α) : FieldReader α := do
  match ← next name with
  | some value => (decode? value : Option α)
  | none => pure default

end FieldReader

/-- Reads a record from an object, where further members are ignored, or from an array, which may
not have further items. -/
def Json.readRecord? {α : Type} (fields : FieldReader α) : Json → Option α
  | .obj members => (fields.run (.named members)).map Prod.fst
  | .arr items =>
    match fields.run (.listed items) with
    | some (value, .listed []) => some value
    | _ => none
  | _ => none

/-- Reads a record from an object only. -/
def Json.readNamedRecord? {α : Type} (fields : FieldReader α) : Json → Option α
  | .obj members => (fields.run (.named members)).map Prod.fst
  | _ => none

/-- A field of a record that is about to be written; without a value it is left out. -/
structure WrittenField where
  name : String
  value : Option Json

namespace WrittenField

/-- A field that is always written. -/
def field {α : Type} [Wire α] (name : String) (value : α) : WrittenField :=
  ⟨name, some (encode value)⟩

/-- A field that is left out if it is absent. -/
def optionalField {α : Type} [Wire α] (name : String) (value : Option α) : WrittenField :=
  ⟨name, value.map encode⟩

end WrittenField

/-- The members of those fields that have a value. -/
def Json.members (fields : List WrittenField) : List (String × Json) :=
  fields.filterMap fun field => field.value.map (field.name, ·)

/-- The object with those of the fields that have a value. -/
def Json.record (fields : List WrittenField) : Json :=
  .object (members fields)

/-- A record whose text is written at once, without an object in between: its members stand in the
order of the fields. It is there to be printed only. -/
def Json.declared (fields : List WrittenField) : Json :=
  .obj (members fields)

end LanguageClient
