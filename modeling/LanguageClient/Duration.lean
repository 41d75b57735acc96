/-!
# Spans of time

A span of time in whole nanoseconds, and its short written form.
-/

namespace LanguageClient

/-- A span of time. -/
structure Duration where
  nanos : Nat
  deriving DecidableEq

namespace Duration

/-- The nanoseconds of a second. -/
def perSecond : Nat := 1000000000

/-- The nanoseconds of a millisecond. -/
def perMilli : Nat := 1000000

/-- The nanoseconds of a microsecond. -/
def perMicro : Nat := 1000

/-- So many seconds. -/
def ofSeconds (seconds : Nat) : Duration := ⟨seconds * perSecond⟩

/-- So many milliseconds. -/
def ofMillis (millis : Nat) : Duration := ⟨millis * perMilli⟩

/-- The whole seconds. -/
def seconds (duration : Duration) : Nat := duration.nanos / perSecond

/-- The nanoseconds beyond the whole seconds. -/
def subsecond (duration : Duration) : Nat := duration.nanos % perSecond

/-- The whole milliseconds. -/
def millis (duration : Duration) : Nat := duration.nanos / perMilli

/-- The digits of a fraction with so many places, without the zeros at the end. -/
def fractionDigits (places value : Nat) : List Char :=
  let digits := Nat.toDigits 10 value
  let padded := List.replicate (places - digits.length) '0' ++ digits
  (padded.reverse.dropWhile (· == '0')).reverse

/-- An amount of a unit with its fraction. -/
def inUnit (nanos unit places : Nat) (name : String) : String :=
  let fraction := fractionDigits places (nanos % unit)
  let point := if nanos % unit == 0 then [] else '.' :: fraction
  String.ofList (Nat.toDigits 10 (nanos / unit) ++ point) ++ name

/-- The span in the largest unit of which it holds at least one. -/
def display (duration : Duration) : String :=
  let nanos := duration.nanos
  if perSecond ≤ nanos then inUnit nanos perSecond 9 "s"
  else if perMilli ≤ nanos then inUnit nanos perMilli 6 "ms"
  else if perMicro ≤ nanos then inUnit nanos perMicro 3 "µs"
  else inUnit nanos 1 0 "ns"

end Duration

end LanguageClient
