/-!
# JSON values

The values that messages, settings and capabilities are made of. The members of an object are kept
in ascending order of their names, each name once, so two objects with the same members are equal.
Numbers are either integers that fit into a signed or an unsigned word of 64 bits, or other
decimals; only the former are read as integers.
-/

namespace LanguageClient

/-- A JSON value. -/
inductive Json
  | null
  | bool (value : Bool)
  /-- An integer from `-2 ^ 63` up to but excluding `2 ^ 64`. -/
  | int (value : Int)
  /-- Any other number, as `significand * 10 ^ exponent`. -/
  | decimal (significand exponent : Int)
  | str (text : String)
  | arr (items : List Json)
  | obj (fields : List (String × Json))
  deriving Inhabited

/-- Puts a member into a list that ascends by name, in place of an earlier member of that name. -/
def insertField {α : Type} (name : String) (value : α) : List (String × α) → List (String × α)
  | [] => [(name, value)]
  | (other, old) :: rest =>
    if name < other then (name, value) :: (other, old) :: rest
    else if name = other then (name, value) :: rest
    else (other, old) :: insertField name value rest

namespace Json

/-- The object with these members; the last member of a name counts. -/
def object (fields : List (String × Json)) : Json :=
  .obj (fields.foldl (fun sorted field => insertField field.1 field.2 sorted) [])

/-- The member of a name, in a list of members. -/
def find? (name : String) (fields : List (String × Json)) : Option Json :=
  fields.lookup name

/-- The member of a name, if the value is an object that has it. -/
def get? (name : String) : Json → Option Json
  | .obj fields => find? name fields
  | _ => none

/-- Whether a value stands for "absent" where a value is optional. -/
def isNull : Json → Bool
  | .null => true
  | _ => false

end Json

end LanguageClient
