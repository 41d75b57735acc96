import LanguageClient.Toml.Basic

/-!
# Tables under construction

The lines of a document add to its tables one after the other. A table remembers how it came to be,
for that decides what may still be added to it: a header may only open a table that no other line
has opened, and a dotted key may only reach into tables that no header has opened.
-/

namespace LanguageClient.Toml

/-- How a table came to be. -/
inductive Origin
  /-- It is the document itself, or has a header of its own. -/
  | headed
  /-- The header of a table below it implies it. -/
  | implied
  /-- A dotted key leads through it. -/
  | dotted
  deriving DecidableEq

/-- A value of a document that is still being read. -/
inductive Draft
  /-- A value that is complete. -/
  | closed (value : Toml)
  | table (origin : Origin) (entries : List (String × Draft))
  /-- Tables that follow each other under one key, the last one at the front. -/
  | series (last : List (String × Draft)) (earlier : List (List (String × Draft)))

namespace Draft

mutual

/-- The finished value. -/
def finish : Draft → Toml
  | .closed value => value
  | .table _ entries => .table (finishEntries entries)
  | .series last earlier => .array (finishSeries earlier ++ [.table (finishEntries last)])

/-- The finished entries of a table. -/
def finishEntries : List (String × Draft) → List (String × Toml)
  | [] => []
  | (key, draft) :: rest => (key, finish draft) :: finishEntries rest

/-- The finished tables of a series, the first one at the front. -/
def finishSeries : List (List (String × Draft)) → List Toml
  | [] => []
  | entries :: rest => finishSeries rest ++ [.table (finishEntries entries)]

end

/-- The entries of a table under construction. -/
abbrev Entries := List (String × Draft)

/-- Changes the table that a header path leads to. Missing tables on the way are implied; a series
stands for its last table. -/
def withinHeader (change : Entries → Option Entries) : List String → Entries → Option Entries
  | [], entries => change entries
  | key :: path, entries => do
    let draft ←
      match entries.lookup key with
      | none => (withinHeader change path []).map (Draft.table .implied)
      | some (.table origin inner) => (withinHeader change path inner).map (Draft.table origin)
      | some (.series last earlier) =>
        (withinHeader change path last).map fun last => .series last earlier
      | some (.closed _) => none
    some (putEntry key draft entries)

/-- Opens the table of a key by its own header. A table that was only implied so far moves behind
the other entries. -/
def openTable (key : String) (entries : Entries) : Option Entries :=
  match entries.lookup key with
  | none => some (putEntry key (.table .headed []) entries)
  | some (.table .implied inner) =>
    some (entries.filter (·.1 != key) ++ [(key, .table .headed inner)])
  | some _ => none

/-- Opens the next table of a series. -/
def openNext (key : String) (entries : Entries) : Option Entries :=
  match entries.lookup key with
  | none => some (putEntry key (.series [] []) entries)
  | some (.series last earlier) => some (putEntry key (.series [] (last :: earlier)) entries)
  | some _ => none

/-- Adds an entry under a key that is not yet in use. -/
def addEntry (key : String) (value : Toml) (entries : Entries) : Option Entries :=
  match entries.lookup key with
  | none => some (putEntry key (.closed value) entries)
  | some _ => none

/-- Changes the table that a dotted key leads to; it has to be a table that dotted keys have
made. -/
def withinDotted (change : Entries → Option Entries) : List String → Entries → Option Entries
  | [], entries => change entries
  | key :: path, entries => do
    let draft ←
      match entries.lookup key with
      | none => (withinDotted change path []).map (Draft.table .dotted)
      | some (.table origin inner) =>
        if origin == .headed || (path.isEmpty && origin != .dotted) then none
        else (withinDotted change path inner).map (Draft.table origin)
      | some (.series last earlier) =>
        if path.isEmpty then none
        else (withinDotted change path last).map fun last => .series last earlier
      | some (.closed _) => none
    some (putEntry key draft entries)

/-- Adds an entry under a dotted key. -/
def addDotted (keys : List String) (value : Toml) (entries : Entries) : Option Entries := do
  let key ← keys.getLast?
  withinDotted (addEntry key value) keys.dropLast entries

end Draft

/-- What a line of a document says. -/
inductive Line
  /-- The header of a table: entries after it belong to that table. -/
  | header (keys : List String)
  /-- The header of the next table of a series. -/
  | nextHeader (keys : List String)
  | entry (keys : List String) (value : Toml)
  | blank

/-- A document whose lines have been read up to some point. -/
structure Reading where
  /-- The keys that lead to the table to which entries are added. -/
  current : List String
  entries : Draft.Entries

namespace Reading

/-- Takes in one line. -/
def take (reading : Reading) : Line → Option Reading
  | .blank => some reading
  | .header keys => do
    let key ← keys.getLast?
    let entries ← Draft.withinHeader (Draft.openTable key) keys.dropLast reading.entries
    some ⟨keys, entries⟩
  | .nextHeader keys => do
    let key ← keys.getLast?
    let entries ← Draft.withinHeader (Draft.openNext key) keys.dropLast reading.entries
    some ⟨keys, entries⟩
  | .entry keys value => do
    let entries ←
      Draft.withinHeader (Draft.addDotted keys value) reading.current reading.entries
    some { reading with entries }

end Reading

/-- The table that the lines of a document write. -/
def ofLines? (lines : List Line) : Option Toml := do
  let reading ← lines.foldlM Reading.take ⟨[], []⟩
  some (.table (Draft.finishEntries reading.entries))

/-- The table that is written between braces. -/
def inlineTable? (entries : List (List String × Toml)) : Option Toml := do
  let entries ← entries.foldlM (fun done entry => Draft.addDotted entry.1 entry.2 done) []
  some (.table (Draft.finishEntries entries))

end LanguageClient.Toml
