import LanguageClient.Toml.Basic

/-!
# Laying one table over another

The entries of the upper table win; where both tables have a table under one key, these are laid
over each other in turn.
-/

namespace LanguageClient.Toml

mutual

/-- What stands under a key after a value has been laid over what stood there. -/
def overlayValue (under : Option Toml) : Toml → Toml
  | .table entries =>
    match under with
    | some (.table base) => .table (overlayEntries base entries)
    | _ => .table entries
  | value => value

/-- The entries of a table after those of another one have been laid over them. -/
def overlayEntries (base : List (String × Toml)) : List (String × Toml) → List (String × Toml)
  | [] => base
  | (key, value) :: rest =>
    overlayEntries (putEntry key (overlayValue (base.lookup key) value) base) rest

end

/-- One document laid over another. -/
def overlay (base upper : Toml) : Toml :=
  overlayValue (some base) upper

end LanguageClient.Toml
