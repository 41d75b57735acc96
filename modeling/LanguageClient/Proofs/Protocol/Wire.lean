import LanguageClient.Proofs.Fields
import LanguageClient.Protocol.Notice

/-!
# Reading what was written

What a client tells a server about documents is read back by the server as it was written. A record
is written as an object in which each name stands once, so each field is found under its name.
-/

namespace LanguageClient

open FieldReader

/-- A type of the protocol whose values are read back as they were written. -/
class LawfulWire (α : Type) [Wire α] : Prop where
  decode?_encode (value : α) : decode? (encode value) = some value

@[simp] theorem decode?_encode {α : Type} [Wire α] [LawfulWire α] (value : α) :
    decode? (encode value) = some value :=
  LawfulWire.decode?_encode value

instance : LawfulWire String where
  decode?_encode _ := rfl

instance : LawfulWire UInt32 where
  decode?_encode value := by
    have hlt := value.toNat_lt
    have hwithin : (0 : Int) ≤ (value.toNat : Int) ∧ (value.toNat : Int) ≤ 4294967295 := by omega
    simp only [decode?, encode, Json.intWithin?, if_pos hwithin, Option.map_some, Int.toNat_natCast,
      UInt32.ofNat_toNat]

instance : LawfulWire Int32 where
  decode?_encode value := by
    have hlow := value.le_toInt
    have hhigh := value.toInt_lt
    have hwithin : -2147483648 ≤ value.toInt ∧ value.toInt ≤ 2147483647 := by omega
    simp only [decode?, encode, Json.intWithin?, if_pos hwithin, Option.map_some,
      Int32.ofInt_toInt]

instance {α : Type} [Wire α] [LawfulWire α] : LawfulWire (List α) where
  decode?_encode values := by
    change (values.map encode).mapM decode? = some values
    induction values with
    | nil => rfl
    | cons value rest ih =>
      rw [List.map_cons, List.mapM_cons, decode?_encode, ih]
      rfl

section Records

variable {α β : Type} [Wire α] (name : String) (fields : List (String × Json))

/-- A field that has to be present is read by its name. -/
@[simp] theorem required_bind (rest : α → FieldReader β) :
    (required name >>= rest) (.named fields) =
      ((Json.find? name fields).bind decode?).bind fun value => rest value (.named fields) := by
  simp only [required, next, bind, StateT.bind, Option.bind]
  cases Json.find? name fields with
  | none => rfl
  | some found =>
    dsimp only
    cases (decode? found : Option α) <;> rfl

/-- A field that may be missing is read by its name, if it is there. -/
@[simp] theorem nullable_bind (rest : Option α → FieldReader β) :
    (nullable name >>= rest) (.named fields) =
      (match Json.find? name fields with
        | some found => (decode? found : Option (Option α))
        | none => some none).bind fun value => rest value (.named fields) := by
  simp only [nullable, next, bind, StateT.bind, Option.bind]
  cases Json.find? name fields with
  | none => rfl
  | some found =>
    dsimp only
    cases (decode? found : Option (Option α)) <;> rfl

/-- A reader that reads nothing more has its value. -/
@[simp] theorem pure_named (value : β) :
    (pure value : FieldReader β) (.named fields) = some (value, .named fields) :=
  rfl

/-- A record is read from the object that was written. -/
@[simp] theorem readRecord?_record (reader : FieldReader β) (written : List WrittenField) :
    Json.readRecord? reader (.record written) = (reader (.named (written.foldl (fun sorted field =>
      match field.value with
      | some value => insertField field.name value sorted
      | none => sorted) []))).map Prod.fst := by
  unfold Json.readRecord? Json.record Json.object Json.members
  dsimp only
  rw [List.foldl_filterMap]
  congr 4
  funext sorted field
  cases field.value <;> rfl

end Records

instance : LawfulWire Position where
  decode?_encode position := by
    change Json.readRecord? _ (Json.record _) = _
    simp [-bind_pure_comp, Json.find?, lookup_insertField, WrittenField.field]

instance : LawfulWire Range where
  decode?_encode range := by
    change Json.readRecord? _ (Json.record _) = _
    simp [-bind_pure_comp, Json.find?, lookup_insertField, WrittenField.field]

instance : LawfulWire DocumentIdentifier where
  decode?_encode document := by
    change Json.readRecord? _ (Json.record _) = _
    simp [-bind_pure_comp, Json.find?, lookup_insertField, WrittenField.field]

instance : LawfulWire VersionedIdentifier where
  decode?_encode document := by
    change Json.readRecord? _ (Json.record _) = _
    simp [-bind_pure_comp, Json.find?, lookup_insertField, WrittenField.field]

instance : LawfulWire DocumentItem where
  decode?_encode item := by
    change Json.readRecord? _ (Json.record _) = _
    simp [-bind_pure_comp, Json.find?, lookup_insertField, WrittenField.field]

instance : LawfulWire ChangeEvent where
  decode?_encode event := by
    change Json.readRecord? _ (Json.record _) = _
    obtain ⟨range, text⟩ := event
    cases range with
    | none =>
      simp [-bind_pure_comp, Json.find?, lookup_insertField, WrittenField.field,
        WrittenField.optionalField]
    | some range =>
      have hrange : (decode? (encode range) : Option (Option Range)) = some (some range) :=
        congrArg (Option.map some) (decode?_encode range)
      simp [-bind_pure_comp, Json.find?, lookup_insertField, WrittenField.field,
        WrittenField.optionalField, hrange]

instance : LawfulWire DidOpenParams where
  decode?_encode params := by
    change Json.readRecord? _ (Json.record _) = _
    simp [-bind_pure_comp, Json.find?, lookup_insertField, WrittenField.field]

instance : LawfulWire DidChangeParams where
  decode?_encode params := by
    change Json.readRecord? _ (Json.record _) = _
    simp [-bind_pure_comp, Json.find?, lookup_insertField, WrittenField.field]

instance : LawfulWire DidCloseParams where
  decode?_encode params := by
    change Json.readRecord? _ (Json.record _) = _
    simp [-bind_pure_comp, Json.find?, lookup_insertField, WrittenField.field]

end LanguageClient
