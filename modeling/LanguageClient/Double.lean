/-!
# Double precision

Numbers with 53 significant bits, as far as whole numbers need them: to which of them a number is
rounded, and from where on a number is too large for all of them.
-/

namespace LanguageClient.Double

/-- The number with 53 significant bits that is nearest, of two equally near ones the even one. -/
def round (n : Nat) : Nat :=
  let unit := Nat.pow 2 (n.log2 + 1 - 53)
  let quotient := n / unit
  let rest := n % unit
  if 2 * rest < unit || (2 * rest == unit && quotient % 2 == 0) then quotient * unit
  else (quotient + 1) * unit

/-- The least number that is too large. It lies in the middle between the largest number and the
power of two that would follow it. -/
def bound : Nat := Nat.pow 2 1024 - Nat.pow 2 970

/-- Whether `significand * 10 ^ exponent` is not too large. An exponent that decides by its size
alone is not raised to a power. -/
def holds (significand : Nat) (exponent : Int) : Bool :=
  if significand == 0 then true
  else if exponent < 0 then significand < bound * Nat.pow 10 exponent.natAbs
  else exponent ≤ 308 && significand * Nat.pow 10 exponent.toNat < bound

end LanguageClient.Double
