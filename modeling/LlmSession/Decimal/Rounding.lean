import LlmSession.Power

/-!
# Rounding a quotient, and what a double is exactly

Every number that is written or read here is a quotient of natural numbers on its way, and is
rounded once.  `roundDiv` is that rounding: to the nearest natural number, and of two that
are equally near to the even one.

`exactValue` says which quotient a double-precision number is.  It looks at the bit pattern
only, so what is said of a pattern can be computed.

## Main statements

* `two_mul_roundDiv_mul_le`, `le_two_mul_roundDiv_mul`: the rounded quotient is within half a
  unit of the exact one.
* `roundDiv_mul`: a natural number rounds to itself.
-/

namespace LlmSession
namespace Decimal

/-- The natural number nearest to `num / den`, and of two that are equally near the even
one. -/
def roundDiv (num den : Nat) : Nat :=
  let low := num / den
  let rest := num % den
  if 2 * rest < den then low
  else if den < 2 * rest then low + 1
  else low + low % 2

/-- The rounded quotient is at most half a unit above the exact one. -/
theorem two_mul_roundDiv_mul_le (num : Nat) {den : Nat} (h : 0 < den) :
    2 * (roundDiv num den * den) ≤ 2 * num + den := by
  have hdiv := Nat.div_add_mod num den
  have hmod := Nat.mod_lt num h
  have hcomm : num / den * den = den * (num / den) := Nat.mul_comm _ _
  unfold roundDiv
  dsimp only
  split
  · omega
  split
  · rw [Nat.add_mul]; omega
  · rcases Nat.mod_two_eq_zero_or_one (num / den) with h0 | h1
    · rw [h0, Nat.add_zero]; omega
    · rw [h1, Nat.add_mul]; omega

/-- The rounded quotient is at most half a unit below the exact one. -/
theorem le_two_mul_roundDiv_mul (num : Nat) {den : Nat} (h : 0 < den) :
    2 * num ≤ 2 * (roundDiv num den * den) + den := by
  have hdiv := Nat.div_add_mod num den
  have hmod := Nat.mod_lt num h
  have hcomm : num / den * den = den * (num / den) := Nat.mul_comm _ _
  unfold roundDiv
  dsimp only
  split
  · omega
  split
  · rw [Nat.add_mul]; omega
  · rcases Nat.mod_two_eq_zero_or_one (num / den) with h0 | h1
    · rw [h0, Nat.add_zero]; omega
    · rw [h1, Nat.add_mul]; omega

/-- A natural number rounds to itself. -/
theorem roundDiv_mul (n : Nat) {den : Nat} (h : 0 < den) : roundDiv (n * den) den = n := by
  simp [roundDiv, Nat.mul_mod_left, Nat.mul_div_cancel _ h, h]

/-- What a number of a binary format stands for. -/
inductive ExactValue where
  /-- No number at all. -/
  | notANumber
  /-- One of the two infinities. -/
  | infinite (negative : Bool)
  /-- The quotient of two natural numbers, with a sign that also a zero has. -/
  | finite (negative : Bool) (num den : Nat)
  deriving DecidableEq, Repr

/-- The quotient `significand * 2 ^ (position - offset)`. -/
def scaled (negative : Bool) (significand position offset : Nat) : ExactValue :=
  if offset ≤ position then .finite negative (significand * twoTo (position - offset)) 1
  else .finite negative significand (twoTo (offset - position))

/-- The value of a bit pattern with `fractionBits` bits of fraction below `exponentBits` bits
of exponent below the sign. -/
def patternValue (fractionBits exponentBits : Nat) (bits : Nat) : ExactValue :=
  let negative := decide (bits / twoTo (fractionBits + exponentBits) % 2 = 1)
  let exponent := bits / twoTo fractionBits % twoTo exponentBits
  let fraction := bits % twoTo fractionBits
  let offset := twoTo (exponentBits - 1) - 1 + fractionBits
  if exponent = twoTo exponentBits - 1 then
    if fraction = 0 then .infinite negative else .notANumber
  else if exponent = 0 then scaled negative fraction 1 offset
  else scaled negative (twoTo fractionBits + fraction) exponent offset

/-- What a double-precision number stands for. -/
def exactValue (x : Float) : ExactValue := patternValue 52 11 x.toBits.toNat

end Decimal
end LlmSession
