import LanguageClient.Proofs.Protocol.Wire
import LanguageClient.Vocabulary.Kinds

/-!
# Reading again what was written for a value that was read

Reading drops what a type does not know, takes null for absent and knows records in two forms, so
writing does not give back what was read. But what is written for a value that was read is read as
that value again. This is carried by the ways in which types are put together: lists, optional
values, choices and records.
-/

namespace LanguageClient

open FieldReader

/-- What is written for a value that was read is read as that value again. -/
structure Normalizes {α : Type} (read : Json → Option α) (write : α → Json) : Prop where
  again {raw : Json} {value : α} (hread : read raw = some value) : read (write value) = some value
  /-- Only null is written as null, which an optional value takes for absent. -/
  ne_null {raw : Json} {value : α} (hread : read raw = some value) (hraw : raw ≠ .null) :
    write value ≠ .null

/-- A type of the protocol whose values stay the same once they were read. -/
class NormalWire (α : Type) [Wire α] : Prop where
  normalizes : Normalizes (decode? : Json → Option α) encode

section Values

variable {α : Type}

/-- Values that are all read as they were written stay the same in particular. -/
theorem NormalWire.of_lawful [Wire α] [LawfulWire α] (hnull : ∀ value : α, encode value ≠ .null) :
    NormalWire α :=
  ⟨⟨fun _ => decode?_encode _, fun _ _ => hnull _⟩⟩

instance : NormalWire Json :=
  ⟨⟨fun _ => rfl, fun hread hraw => Option.some.inj hread ▸ hraw⟩⟩

instance : NormalWire Bool :=
  ⟨⟨fun _ => rfl, fun _ _ => nofun⟩⟩

instance : NormalWire String :=
  .of_lawful fun _ => nofun

instance : NormalWire UInt32 :=
  .of_lawful fun _ => nofun

section Vocabularies

variable [Vocabulary α]

/-- Reading a raw value gives a member that is written as that value. -/
theorem Vocabulary.raw_of_ofRaw
    (hcustom : ∀ custom ∈ custom? (α := α), ∀ text, raw (custom text) = .text text)
    {value : RawValue} {member : α} (hread : ofRaw value = .ok member) : raw member = value := by
  unfold ofRaw at hread
  split at hread
  · rename_i value _ _ _ known name hknown
    obtain rfl := Except.ok.inj hread
    have hfound : (members.find? fun entry => raw entry.1 == value) = some (known, name) := hknown
    have hraw := List.find?_some hfound
    exact beq_iff_eq.mp hraw
  · rename_i hopen _
    obtain rfl := Except.ok.inj hread
    exact hcustom _ hopen _
  · cases hread

/-- A raw value of the kind that a vocabulary reads is read as it was written. -/
theorem Vocabulary.decodeRaw?_encode {value : Json} {raw : RawValue}
    (hread : decodeRaw? α value = some raw) : decodeRaw? α (encode raw) = some raw := by
  unfold decodeRaw? at hread ⊢
  split at hread <;> rename_i hnumeric
  · obtain ⟨number, -, rfl⟩ := Option.map_eq_some_iff.mp hread
    rw [if_pos hnumeric]
    exact congrArg _ (decode?_encode number)
  · obtain ⟨text, -, rfl⟩ := Option.map_eq_some_iff.mp hread
    rw [if_neg hnumeric]
    rfl

theorem Vocabulary.decode?_eq_some_iff {value : Json} {member : α} :
    decode? value = some member ↔
      ∃ raw, decodeRaw? α value = some raw ∧ ofRaw raw = .ok member := by
  refine Option.bind_eq_some_iff.trans (exists_congr fun raw => and_congr_right fun _ => ?_)
  cases ofRaw (α := α) raw with
  | ok found => simp [Except.toOption]
  | error _ => simp [Except.toOption]

/-- The members of a vocabulary stay the same, if every custom member keeps its text. -/
theorem NormalWire.of_vocabulary
    (hcustom : ∀ custom ∈ Vocabulary.custom? (α := α), ∀ text,
      Vocabulary.raw (custom text) = .text text) : NormalWire α where
  normalizes := {
    again {value member} hread := by
      obtain ⟨raw, hraw, hmember⟩ := Vocabulary.decode?_eq_some_iff.mp hread
      have hwritten : encode member = encode raw :=
        congrArg encode (Vocabulary.raw_of_ofRaw hcustom hmember)
      rw [hwritten]
      exact Vocabulary.decode?_eq_some_iff.mpr ⟨raw, Vocabulary.decodeRaw?_encode hraw, hmember⟩
    ne_null {_ member} _ _ := by
      change encode (Vocabulary.raw member) ≠ .null
      cases Vocabulary.raw member <;> nofun }

end Vocabularies

instance : NormalWire SyncKind :=
  .of_vocabulary nofun

instance : NormalWire FileKind :=
  .of_vocabulary nofun

instance : NormalWire CodeActionKind :=
  .of_vocabulary fun _ hcustom _ => Option.some.inj hcustom ▸ rfl

instance : NormalWire PositionEncoding :=
  .of_vocabulary fun _ hcustom _ => Option.some.inj hcustom ▸ rfl

instance [Wire α] [NormalWire α] : NormalWire (List α) where
  normalizes := {
    again {raw values} hread := by
      cases raw with
      | arr items =>
        change items.mapM decode? = some values at hread
        change (values.map encode).mapM decode? = some values
        induction items generalizing values with
        | nil =>
          obtain rfl := Option.some.inj hread
          rfl
        | cons item items ih =>
          rw [List.mapM_cons] at hread
          obtain ⟨value, hvalue, rest, hrest, hdone⟩ : ∃ value, decode? item = some value ∧
              ∃ rest, items.mapM decode? = some rest ∧ some (value :: rest) = some values := by
            simpa [Option.bind_eq_some_iff] using hread
          obtain rfl := Option.some.inj hdone
          rw [List.map_cons, List.mapM_cons, NormalWire.normalizes.again hvalue, ih hrest]
          rfl
      | _ => cases hread
    ne_null _ _ := nofun }

/-- A value other than null is read as a value that is there. -/
theorem decode?_option_of_ne_null [Wire α] {raw : Json} (hraw : raw ≠ .null) :
    (decode? raw : Option (Option α)) = (decode? raw).map some := by
  cases raw with
  | null => exact absurd rfl hraw
  | _ => rfl

instance [Wire α] [NormalWire α] : NormalWire (Option α) where
  normalizes := {
    again {raw value} hread := by
      by_cases hraw : raw = .null
      · subst hraw
        obtain rfl := Option.some.inj hread
        rfl
      · rw [decode?_option_of_ne_null hraw] at hread
        obtain ⟨inner, hinner, rfl⟩ := Option.map_eq_some_iff.mp hread
        change decode? (encode inner) = _
        rw [decode?_option_of_ne_null (NormalWire.normalizes.ne_null hinner hraw),
          NormalWire.normalizes.again hinner]
        rfl
    ne_null {raw value} hread hraw := by
      rw [decode?_option_of_ne_null hraw] at hread
      obtain ⟨inner, hinner, rfl⟩ := Option.map_eq_some_iff.mp hread
      have hnull : encode inner ≠ .null := NormalWire.normalizes.ne_null hinner hraw
      exact hnull }

end Values

section Choices

variable {α β : Type} {first second : Json → Option α} {write : α → Json}

/-- A form of a choice is one of its types. -/
theorem Normalizes.form [Wire β] [NormalWire β] {wrap : β → α}
    (hwrite : ∀ value, write (wrap value) = encode value) :
    Normalizes (fun raw => (decode? raw).map wrap) write where
  again {raw value} hread := by
    obtain ⟨inner, hinner, rfl⟩ := Option.map_eq_some_iff.mp hread
    rw [hwrite, NormalWire.normalizes.again hinner]
    rfl
  ne_null {raw value} hread hraw := by
    obtain ⟨inner, hinner, rfl⟩ := Option.map_eq_some_iff.mp hread
    rw [hwrite]
    exact NormalWire.normalizes.ne_null hinner hraw

/-- A choice takes a value in the first form that can be read. What is written for a value of a
later form must not be taken in an earlier one. -/
theorem Normalizes.choice (hfirst : Normalizes first write) (hsecond : Normalizes second write)
    (hapart : ∀ raw value, first raw = none → second raw = some value →
      first (write value) = none) :
    Normalizes (fun raw => first raw <|> second raw) write where
  again {raw value} hread := by
    cases hraw : first raw with
    | some taken =>
      rw [hraw] at hread
      obtain rfl : taken = value := Option.some.inj hread
      rw [hfirst.again hraw]
      rfl
    | none =>
      rw [hraw] at hread
      rw [hapart raw value hraw hread]
      exact hsecond.again hread
  ne_null {raw value} hread hnull := by
    cases hraw : first raw with
    | some taken =>
      rw [hraw] at hread
      obtain rfl : taken = value := Option.some.inj hread
      exact hfirst.ne_null hraw hnull
    | none =>
      rw [hraw] at hread
      exact hsecond.ne_null hread hnull

/-- A last form that is never taken in an earlier one. -/
theorem Normalizes.choice_form [Wire β] [NormalWire β] {wrap : β → α}
    (hfirst : Normalizes first write) (hwrite : ∀ value, write (wrap value) = encode value)
    (hapart : ∀ value, first (write (wrap value)) = none) :
    Normalizes (fun raw => first raw <|> (decode? raw).map wrap) write := by
  refine .choice hfirst (.form hwrite) ?_
  intro raw value _ hread
  obtain ⟨inner, -, rfl⟩ := Option.map_eq_some_iff.mp hread
  exact hapart inner

end Choices

section Members

/-- The members `fields` are those of the fields that were written. -/
def Holds (fields : List (String × Json)) (written : List WrittenField) : Prop :=
  ∀ field ∈ written, Json.find? field.name fields = field.value

/-- The object that is written for fields of different names has these fields, and no others. -/
theorem exists_record {written : List WrittenField}
    (hnames : (written.map WrittenField.name).Nodup) :
    ∃ fields, Json.record written = .obj fields ∧ Holds fields written ∧
      ∀ name, name ∉ written.map WrittenField.name → Json.find? name fields = none := by
  have hsublist := names_filterMap_sublist WrittenField.name WrittenField.value written
  have hfound : ∀ name, Json.find? name ((Json.members written).foldl
      (fun sorted field => insertField field.1 field.2 sorted) []) =
        (Json.members written).lookup name := by
    intro name
    have hfold := lookup_foldl_insertField (hnames.sublist hsublist) [] name
    rwa [List.lookup_nil, Option.or_none] at hfold
  refine ⟨_, rfl, ?_, ?_⟩
  · intro field hfield
    exact (hfound _).trans (lookup_filterMap WrittenField.value hnames hfield)
  · intro name hname
    exact (hfound _).trans (lookup_eq_none_of_not_mem fun hmem => hname (hsublist.subset hmem))

end Members

section Fields

variable {α : Type}

/-- What is written for a value that `reader` has read is read by it as that value again. -/
def Rereads (reader : FieldReader α) (write : α → List WrittenField) : Prop :=
  ∀ members value rest, reader members = some (value, rest) →
    ∀ fields, Holds fields (write value) → reader (.named fields) = some (value, .named fields)

/-- Whatever comes next starts with what was read and with the members that are left. -/
theorem FieldReader.bind_eq_some {β : Type} {reader : FieldReader α} {next : α → FieldReader β}
    {members rest : Members} {value : β}
    (hread : (reader >>= next) members = some (value, rest)) :
    ∃ first after, reader members = some (first, after) ∧
      next first after = some (value, rest) := by
  obtain ⟨⟨first, after⟩, hfirst, hnext⟩ := Option.bind_eq_some_iff.mp hread
  exact ⟨first, after, hfirst, hnext⟩

theorem FieldReader.bind_of_eq {β : Type} {reader : FieldReader α} {next : α → FieldReader β}
    {members after : Members} {first : α} (hfirst : reader members = some (first, after)) :
    (reader >>= next) members = next first after := by
  change (reader members).bind (fun found => next found.1 found.2) = _
  rw [hfirst]
  rfl

variable [Wire α] {name : String} {missing : FieldReader α}

/-- The field of a name, or what counts if it is missing. -/
def fieldOr (name : String) (missing : FieldReader α) : FieldReader α := do
  match ← next name with
  | some raw => (decode? raw : Option α)
  | none => missing

/-- What is read for a field was read from some value, unless the field was missing. -/
theorem fieldOr_eq_some {members rest : Members} {value : α}
    (hread : fieldOr name missing members = some (value, rest)) :
    (∃ raw, decode? raw = some value) ∨ ∃ after, missing after = some (value, rest) := by
  obtain ⟨found, after, -, hfound⟩ := bind_eq_some hread
  cases found with
  | none => exact Or.inr ⟨after, hfound⟩
  | some raw =>
    obtain ⟨first, hfirst, hdone⟩ := Option.bind_eq_some_iff.mp hfound
    obtain ⟨rfl, -⟩ := Prod.mk.inj (Option.some.inj hdone)
    exact Or.inl ⟨raw, hfirst⟩

theorem fieldOr_of_found {fields : List (String × Json)} {raw : Json} {value : α}
    (hfound : Json.find? name fields = some raw) (hvalue : decode? raw = some value) :
    fieldOr name missing (.named fields) = some (value, .named fields) := by
  have hnext : next name (.named fields) = some (some raw, .named fields) :=
    congrArg (fun found => some (found, Members.named fields)) hfound
  rw [fieldOr, bind_of_eq hnext]
  exact congrArg (fun read => read.bind fun value => some (value, Members.named fields)) hvalue

theorem fieldOr_of_missing {fields : List (String × Json)}
    (hmissing : Json.find? name fields = none) :
    fieldOr name missing (.named fields) = missing (.named fields) := by
  have hnext : next name (.named fields) = some (none, .named fields) :=
    congrArg (fun found => some (found, Members.named fields)) hmissing
  rw [fieldOr, bind_of_eq hnext]

variable [NormalWire α]

/-- A field that is always written is read again, whatever counts if it is missing. -/
theorem rereads_field
    (hmissing : ∀ members value rest, missing members = some (value, rest) →
      decode? (encode value) = some value) :
    Rereads (fieldOr name missing) fun value => [.field name value] := by
  intro members value rest hread fields hholds
  refine fieldOr_of_found (hholds _ (List.mem_singleton_self _)) ?_
  rcases fieldOr_eq_some hread with ⟨raw, hraw⟩ | ⟨after, hafter⟩
  · exact NormalWire.normalizes.again hraw
  · exact hmissing _ _ _ hafter

/-- A field that is left out if it is absent is read again, if a missing one is absent. -/
theorem rereads_optionalField {missing : FieldReader (Option α)}
    (hmissing : ∀ members value rest, missing members = some (value, rest) → value = none)
    (hnone : ∀ fields, missing (.named fields) = some (none, .named fields)) :
    Rereads (fieldOr name missing) fun value => [.optionalField name value] := by
  intro members value rest hread fields hholds
  have hfound : Json.find? name fields = value.map encode := hholds _ (List.mem_singleton_self _)
  cases value with
  | none => rw [fieldOr_of_missing hfound, hnone]
  | some value =>
    refine fieldOr_of_found hfound ?_
    rcases fieldOr_eq_some hread with ⟨raw, hraw⟩ | ⟨after, hafter⟩
    · exact NormalWire.normalizes.again hraw
    · cases hmissing _ _ _ hafter

end Fields

section Records

variable {α β : Type} [Wire α] [NormalWire α] {name : String} {names : List String}
  {write : β → Json} {before : List WrittenField}

/-- `reader` reads the rest of a record after the fields `before`. What is written for the record
has these fields and then fields of the names `names`, and the rest is read again from the object
that is written. -/
def Finishes (write : β → Json) (before : List WrittenField) (names : List String)
    (reader : FieldReader β) : Prop :=
  ∀ members value rest, reader members = some (value, rest) →
    ∃ after, after.map WrittenField.name = names ∧ write value = .record (before ++ after) ∧
      ∀ fields, Holds fields (before ++ after) →
        reader (.named fields) = some (value, .named fields)

/-- A record of which all fields have been read. -/
theorem Finishes.pure {value : β} (hwrite : write value = .record before) :
    Finishes write before [] (Pure.pure value) := by
  intro members value' rest hread
  obtain ⟨rfl, -⟩ := Prod.mk.inj (Option.some.inj hread)
  exact ⟨[], rfl, by rw [hwrite, List.append_nil], fun _ _ => rfl⟩

/-- A part that is read again, and then the rest of the record. -/
theorem Finishes.bind {α : Type} {first : FieldReader α} {fields : α → List WrittenField}
    {next : α → FieldReader β} {here : List String} (hfirst : Rereads first fields)
    (hhere : ∀ part, (fields part).map WrittenField.name = here)
    (hnext : ∀ members part rest, first members = some (part, rest) →
      Finishes write (before ++ fields part) names (next part)) :
    Finishes write before (here ++ names) (first >>= next) := by
  intro members value rest hread
  obtain ⟨part, middle, hpart, hrest⟩ := bind_eq_some hread
  obtain ⟨after, hafter, hwrite, hagain⟩ := hnext _ _ _ hpart _ _ _ hrest
  rw [List.append_assoc] at hwrite hagain
  refine ⟨fields part ++ after, by rw [List.map_append, hhere, hafter], hwrite, ?_⟩
  intro members' hholds
  have hfields : Holds members' (fields part) := fun field hfield =>
    hholds field (List.mem_append_right _ (List.mem_append_left _ hfield))
  rw [bind_of_eq (hfirst _ _ _ hpart members' hfields)]
  exact hagain members' hholds

/-- One field that is read again, and then the rest of the record. -/
theorem Finishes.field {α : Type} {first : FieldReader α} {field : α → WrittenField}
    {next : α → FieldReader β} (hfirst : Rereads first fun part => [field part])
    (hname : ∀ part, (field part).name = name)
    (hnext : ∀ part, Finishes write (before ++ [field part]) names (next part)) :
    Finishes write before (name :: names) (first >>= next) :=
  Finishes.bind hfirst (fun part => congrArg ([·]) (hname part)) fun _ part _ _ => hnext part

theorem Finishes.required {next : α → FieldReader β}
    (hnext : ∀ part, Finishes write (before ++ [.field name part]) names (next part)) :
    Finishes write before (name :: names) (FieldReader.required name >>= next) := by
  refine .field (rereads_field ?_) (fun _ => rfl) hnext
  intro members part rest hread
  cases hread

theorem Finishes.defaulted {default : α} {next : α → FieldReader β}
    (hdefault : decode? (encode default) = some default)
    (hnext : ∀ part, Finishes write (before ++ [.field name part]) names (next part)) :
    Finishes write before (name :: names) (FieldReader.defaulted name default >>= next) := by
  refine .field (rereads_field ?_) (fun _ => rfl) hnext
  intro members part rest hread
  obtain ⟨rfl, -⟩ := Prod.mk.inj (Option.some.inj hread)
  exact hdefault

theorem Finishes.omissible {next : Option α → FieldReader β}
    (hnext : ∀ part, Finishes write (before ++ [.optionalField name part]) names (next part)) :
    Finishes write before (name :: names) (FieldReader.omissible name >>= next) := by
  refine .field (rereads_optionalField ?_ fun _ => rfl) (fun _ => rfl) hnext
  intro members part rest hread
  exact (Prod.mk.inj (Option.some.inj hread)).1.symm

theorem rereads_nullable :
    Rereads (nullable name) fun part : Option α => [.optionalField name part] := by
  refine rereads_optionalField ?_ fun _ => rfl
  intro members part rest hread
  cases members with
  | named fields => exact (Prod.mk.inj (Option.some.inj hread)).1.symm
  | listed items => cases hread

theorem Finishes.nullable {next : Option α → FieldReader β}
    (hnext : ∀ part, Finishes write (before ++ [.optionalField name part]) names (next part)) :
    Finishes write before (name :: names) (FieldReader.nullable name >>= next) :=
  .field rereads_nullable (fun _ => rfl) hnext

theorem readNamedRecord?_eq_some {reader : FieldReader β} {raw : Json} {value : β}
    (hread : Json.readNamedRecord? reader raw = some value) :
    ∃ members rest, reader members = some (value, rest) := by
  cases raw with
  | obj members =>
    obtain ⟨⟨_, rest⟩, hmembers, rfl⟩ := Option.map_eq_some_iff.mp hread
    exact ⟨_, rest, hmembers⟩
  | _ => cases hread

theorem readRecord?_eq_some {reader : FieldReader β} {raw : Json} {value : β}
    (hread : Json.readRecord? reader raw = some value) :
    ∃ members rest, reader members = some (value, rest) := by
  cases raw with
  | obj members =>
    obtain ⟨⟨_, rest⟩, hmembers, rfl⟩ := Option.map_eq_some_iff.mp hread
    exact ⟨_, rest, hmembers⟩
  | arr items =>
    unfold Json.readRecord? at hread
    dsimp only at hread
    split at hread
    · rename_i hmembers
      obtain rfl := Option.some.inj hread
      exact ⟨_, _, hmembers⟩
    · cases hread
  | _ => cases hread

variable {reader : FieldReader β} (hreader : Finishes write [] names reader)
  (hdistinct : names.Nodup)
include hreader hdistinct

/-- A record is read again from the object that is written for it. -/
theorem Finishes.again {members rest : Members} {value : β}
    (hread : reader members = some (value, rest)) :
    ∃ fields, write value = .obj fields ∧
      reader (.named fields) = some (value, .named fields) := by
  obtain ⟨written, hnames, hwrite, hagain⟩ := hreader _ _ _ hread
  obtain ⟨fields, hrecord, hholds, -⟩ := exists_record (hnames ▸ hdistinct)
  exact ⟨fields, hwrite.trans hrecord, hagain fields hholds⟩

theorem Finishes.normalizes {read : Json → Option β}
    (hmembers : ∀ raw value, read raw = some value →
      ∃ members rest, reader members = some (value, rest))
    (hobject : ∀ fields, read (.obj fields) = (reader (.named fields)).map Prod.fst) :
    Normalizes read write where
  again hread := by
    obtain ⟨members, rest, hpart⟩ := hmembers _ _ hread
    obtain ⟨fields, hwrite, hagain⟩ := hreader.again hdistinct hpart
    rw [hwrite, hobject, hagain]
    rfl
  ne_null hread _ := by
    obtain ⟨members, rest, hpart⟩ := hmembers _ _ hread
    obtain ⟨fields, hwrite, -⟩ := hreader.again hdistinct hpart
    rw [hwrite]
    nofun

/-- A record that is read from an object or from an array stays the same. -/
theorem NormalWire.record : @NormalWire β ⟨Json.readRecord? reader, write⟩ :=
  @NormalWire.mk _ (_)
    (hreader.normalizes hdistinct (fun _ _ => readRecord?_eq_some) fun _ => rfl)

omit hreader hdistinct in
/-- The last form of a choice may be a record that is read from an object only. No object may be
taken in an earlier form. -/
theorem Normalizes.choice_named {first : Json → Option β} (hfirst : Normalizes first write)
    (hapart : ∀ fields, first (.obj fields) = none) (names : List String) (hdistinct : names.Nodup)
    (hreader : Finishes write [] names reader) :
    Normalizes (fun raw => first raw <|> Json.readNamedRecord? reader raw) write := by
  refine .choice hfirst
    (hreader.normalizes hdistinct (fun _ _ => readNamedRecord?_eq_some) fun _ => rfl) ?_
  intro raw value _ hread
  obtain ⟨members, rest, hmembers⟩ := readNamedRecord?_eq_some hread
  obtain ⟨fields, hwrite, -⟩ := hreader.again hdistinct hmembers
  rw [hwrite]
  exact hapart fields

end Records

/-- A record is not taken for one with a field that was not written. -/
theorem readRecord?_record_eq_none {α β : Type} [Wire α] {written : List WrittenField}
    {name : String} {next : α → FieldReader β} (hnames : (written.map WrittenField.name).Nodup)
    (hname : name ∉ written.map WrittenField.name) :
    Json.readRecord? (required name >>= next) (.record written) = none := by
  obtain ⟨fields, hrecord, -, habsent⟩ := exists_record hnames
  have hmissing : required name (.named fields) = (none : Option (α × Members)) :=
    fieldOr_of_missing (habsent name hname)
  rw [hrecord]
  change Option.map Prod.fst ((required name (.named fields)).bind _) = none
  rw [hmissing]
  rfl

end LanguageClient
