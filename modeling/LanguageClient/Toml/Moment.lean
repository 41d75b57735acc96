import LanguageClient.Json.Parser
import LanguageClient.Toml.Basic

/-!
# Moments

A moment is a date, a time of day, or both, perhaps with the distance from universal time. Words of
a document and texts write moments in the same way but for the limits of the clock. A table can
stand for a moment too: its first entry then has a key that is reserved for this, with the moment
as a text.
-/

namespace LanguageClient.Toml

/-- The largest numbers that may be written for a time of day and for the distance from universal
time. -/
structure ClockLimits where
  hour : Nat
  offsetHour : Nat
  offsetMinute : Nat

namespace ClockLimits

/-- The limits of moments in a document. -/
def ofDocument : ClockLimits := ⟨23, 23, 59⟩

/-- The limits of moments in a text, where a day may end in an hour 24, and a distance only has to
stay within a day. -/
def ofText : ClockLimits := ⟨24, 99, 99⟩

end ClockLimits

/-- A number of two digits between two bounds, and the rest. -/
def readPair? (low high : Nat) : List Char → Option (Nat × List Char)
  | a :: b :: rest =>
    let value := Json.digitsValue 0 [a, b]
    if a.isDigit && b.isDigit && low ≤ value && value ≤ high then some (value, rest) else none
  | _ => none

/-- Two digits that write a number. -/
def pair (n : Nat) : List Char :=
  [Nat.digitChar (n / 10), Nat.digitChar (n % 10)]

/-- Drops one given character from the front. -/
def drop? (c : Char) : List Char → Option (List Char)
  | first :: rest => if first == c then some rest else none
  | [] => none

/-- How many days a month has. -/
def daysOf (year month : Nat) : Nat :=
  if month == 2 then
    if year % 4 == 0 && (year % 100 != 0 || year % 400 == 0) then 29 else 28
  else if month == 4 || month == 6 || month == 9 || month == 11 then 30
  else 31

/-- A date: four digits, two and two, with hyphens between them. -/
def readDate? (chars : List Char) : Option (List Char × List Char) := do
  let (century, rest) ← readPair? 0 99 chars
  let (year, rest) ← readPair? 0 99 rest
  let (month, rest) ← readPair? 1 12 (← drop? '-' rest)
  let (day, rest) ← readPair? 1 31 (← drop? '-' rest)
  if day ≤ daysOf (century * 100 + year) month
  then some (pair century ++ pair year ++ '-' :: pair month ++ '-' :: pair day, rest)
  else none

/-- The fraction of a second: at most nine digits count, and zeros at the end are not written. -/
def readSecondFraction? : List Char → Option (List Char × List Char)
  | '.' :: rest =>
    let digits := rest.takeWhile Char.isDigit
    if digits.isEmpty then none
    else
      let counted := ((digits.take 9).reverse.dropWhile (· == '0')).reverse
      some (if counted.isEmpty then [] else '.' :: counted, rest.dropWhile Char.isDigit)
  | chars => some ([], chars)

/-- A time of day. -/
def readTime? (limits : ClockLimits) (chars : List Char) : Option (List Char × List Char) := do
  let (hour, rest) ← readPair? 0 limits.hour chars
  let (minute, rest) ← readPair? 0 59 (← drop? ':' rest)
  let (second, rest) ← readPair? 0 60 (← drop? ':' rest)
  let (fraction, rest) ← readSecondFraction? rest
  some (pair hour ++ ':' :: pair minute ++ ':' :: pair second ++ fraction, rest)

/-- The distance from universal time, to the end of the moment. It is written in whole hours and the
minutes that are left, and no distance has a plus sign. -/
def offset? (limits : ClockLimits) : List Char → Option (List Char)
  | [] => some []
  | ['Z'] => some ['Z']
  | ['z'] => some ['Z']
  | sign :: rest => do
    if sign != '+' && sign != '-' then none
    let (hours, rest) ← readPair? 0 limits.offsetHour rest
    let (minutes, rest) ← readPair? 0 limits.offsetMinute (← drop? ':' rest)
    let total := hours * 60 + minutes
    if !rest.isEmpty || total > 24 * 60 then none
    some ((if total == 0 then '+' else sign) :: pair (total / 60) ++ ':' :: pair (total % 60))

/-- A date, a time of day, or a date with a time and perhaps a distance from universal time, in the
form in which moments are written. -/
def readMoment? (limits : ClockLimits) (chars : List Char) : Option String :=
  match readDate? chars with
  | some (date, []) => some (String.ofList date)
  | some (date, delimiter :: rest) => do
    if delimiter != 'T' && delimiter != 't' && delimiter != ' ' then none
    let (time, rest) ← readTime? limits rest
    let offset ← offset? limits rest
    some (String.ofList (date ++ 'T' :: time ++ offset))
  | none =>
    match readTime? limits chars with
    | some (time, []) => some (String.ofList time)
    | _ => none

/-- The key of the first entry of a table that stands for a moment. -/
def momentKey : String := "$__toml_private_datetime"

mutual

/-- The value in which every table that stands for a moment is replaced by that moment, unless one
of them has no moment under its key. The entries after the first one of such a table do not
count. -/
def withMoments? : Toml → Option Toml
  | .array items => (itemsWithMoments? items).map .array
  | .table ((key, value) :: rest) =>
    if key == momentKey then
      match value with
      | .text content => (readMoment? .ofText content.toList).map .moment
      | _ => none
    else (entriesWithMoments? ((key, value) :: rest)).map .table
  | value => some value

/-- The items of an array with their moments. -/
def itemsWithMoments? : List Toml → Option (List Toml)
  | [] => some []
  | item :: rest => do
    let item ← withMoments? item
    let items ← itemsWithMoments? rest
    some (item :: items)

/-- The entries of a table with their moments. -/
def entriesWithMoments? : List (String × Toml) → Option (List (String × Toml))
  | [] => some []
  | (key, value) :: rest => do
    let value ← withMoments? value
    let entries ← entriesWithMoments? rest
    some ((key, value) :: entries)

end

/-- A document with its moments; the document itself stands for none. -/
def documentWithMoments? : Toml → Option Toml
  | .table entries => (entriesWithMoments? entries).map .table
  | value => some value

end LanguageClient.Toml
