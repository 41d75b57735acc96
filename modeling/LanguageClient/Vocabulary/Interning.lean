import LanguageClient.Vocabulary.Basic

/-!
# Shared custom members

The custom members of open vocabularies share their payloads: a table holds every custom value that
was read so far, and reading the same value of the same vocabulary again yields the entry that is
already there. Entries are never removed, so the place of an entry identifies it.
-/

namespace LanguageClient

/-- The custom values read so far, each with the name of its vocabulary. -/
structure InternTable where
  entries : List (String × RawValue)

/-- A member, and the place of its payload in the table if it is a custom one. -/
structure Interned (α : Type) where
  member : α
  payload : Option Nat

namespace InternTable

/-- No custom value was read yet. -/
def empty : InternTable := ⟨[]⟩

/-- The place of a custom value, and the table that holds it. -/
def intern (table : InternTable) (vocabulary : String) (value : RawValue) : Nat × InternTable :=
  match table.entries.idxOf? (vocabulary, value) with
  | some place => (place, table)
  | none => (table.entries.length, ⟨table.entries ++ [(vocabulary, value)]⟩)

/-- Reads a raw value; only a custom member of an open vocabulary enters the table. -/
def read (α : Type) [Vocabulary α] (table : InternTable) (value : RawValue) :
    Except UnrecognizedValue (Interned α) × InternTable :=
  match Vocabulary.ofRaw (α := α) value with
  | .error error => (.error error, table)
  | .ok member =>
    if Vocabulary.isRecognized member then (.ok ⟨member, none⟩, table)
    else
      let (place, table) := table.intern (Vocabulary.name α) value
      (.ok ⟨member, some place⟩, table)

end InternTable

namespace Interned

/-- Whether two custom members have one payload; undefined unless both are custom. -/
def shared? {α : Type} (a b : Interned α) : Option Bool :=
  match a.payload, b.payload with
  | some first, some second => some (first == second)
  | _, _ => none

/-- Whether two members are equal: predefined ones if they are the same, custom ones if they have
one payload or the same value. -/
def equals {α : Type} [Vocabulary α] [DecidableEq α] (a b : Interned α) : Bool :=
  match a.payload, b.payload with
  | none, none => a.member == b.member
  | some first, some second =>
    first == second || Vocabulary.raw a.member == Vocabulary.raw b.member
  | _, _ => false

/-- What the hash of a member is made from: the number of its variant, the custom one being the
last, and the value of a custom member. -/
def hashInput {α : Type} [Vocabulary α] [DecidableEq α] (a : Interned α) : Nat × Option RawValue :=
  let predefined := (Vocabulary.members (α := α)).map Prod.fst
  match a.payload with
  | none => (predefined.idxOf a.member, none)
  | some _ => (predefined.length, some (Vocabulary.raw a.member))

end Interned

end LanguageClient
