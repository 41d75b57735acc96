import LanguageClient.Json.Basic

/-!
# Values of a settings file

The values that a TOML document is made of. The entries of a table are kept in the order in which
the document names their keys, each key once.
-/

namespace LanguageClient

/-- A TOML value. -/
inductive Toml
  | text (content : String)
  /-- An integer from `-2 ^ 63` up to but excluding `2 ^ 63`. -/
  | integer (value : Int)
  /-- A finite decimal, as `significand * 10 ^ exponent`. -/
  | decimal (significand exponent : Int)
  /-- An infinity, or the value that is no number. -/
  | nonFinite
  | truth (value : Bool)
  /-- A date, a time of day, or both, in the form in which it is written. -/
  | moment (written : String)
  | array (items : List Toml)
  | table (entries : List (String × Toml))
  deriving Inhabited

namespace Toml

/-- Puts an entry in place of the one under its key, or else behind all others. -/
def putEntry {α : Type} (key : String) (value : α) : List (String × α) → List (String × α)
  | [] => [(key, value)]
  | (other, old) :: rest =>
    if other = key then (key, value) :: rest else (other, old) :: putEntry key value rest

mutual

/-- The value as JSON, which has no infinities. It has no moments of its own either: these become
what `moment` makes of their written form. -/
def toJson (moment : String → Json) : Toml → Json
  | .text content => .str content
  | .integer value => .int value
  | .decimal significand exponent => .decimal significand exponent
  | .nonFinite => .null
  | .truth value => .bool value
  | .moment written => moment written
  | .array items => .arr (itemsToJson moment items)
  | .table entries => .object (entriesToJson moment entries)

/-- The items of an array as JSON. -/
def itemsToJson (moment : String → Json) : List Toml → List Json
  | [] => []
  | item :: rest => toJson moment item :: itemsToJson moment rest

/-- The entries of a table as the members of an object. -/
def entriesToJson (moment : String → Json) : List (String × Toml) → List (String × Json)
  | [] => []
  | (key, value) :: rest => (key, toJson moment value) :: entriesToJson moment rest

end

/-- The entries, if the value is a table. -/
def entries? : Toml → Option (List (String × Toml))
  | .table entries => some entries
  | _ => none

/-- What stands at the end of a path of keys. -/
def at? : Toml → List String → Option Toml
  | value, [] => some value
  | .table entries, key :: path =>
    match entries.lookup key with
    | some value => value.at? path
    | none => none
  | _, _ :: _ => none

end Toml

end LanguageClient
