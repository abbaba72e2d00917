import LlmSession.Decimal.Rounding
import LlmSession.Power

/-!
# Binary32 bit patterns

The sampler's settings are single-precision numbers.  A `Binary32` is the bit pattern of
one, so that two settings are equal exactly when their patterns are, and so that order and
clamping can be reasoned about in integers: the pattern without its sign bit counts the
magnitudes in ascending order.

The numeric order is not the order of patterns.  A NaN is neither below nor above anything,
and the two zeros are neither below nor above each other.  `clamp` is defined by that order
alone, so it lets a NaN and a negative zero through.
-/

namespace LlmSession

/-- A single-precision number, as its bit pattern. -/
structure Binary32 where
  /-- Sign, exponent and fraction, most significant bit first. -/
  bits : UInt32
  deriving DecidableEq, Repr

namespace Binary32

/-- The pattern without its sign bit. -/
def magnitude (x : Binary32) : Nat := x.bits.toNat % twoTo 31

/-- Whether the sign bit is set. -/
def isNegative (x : Binary32) : Bool := decide (twoTo 31 ≤ x.bits.toNat)

/-- The magnitude of the two infinities; those above it are NaNs. -/
def infinityMagnitude : Nat := 0x7F800000

/-- Whether the pattern is that of no number. -/
def isNaN (x : Binary32) : Bool := decide (infinityMagnitude < x.magnitude)

/-- Whether the pattern is that of a number other than the infinities. -/
def isFinite (x : Binary32) : Bool := decide (x.magnitude < infinityMagnitude)

/-- An integer that orders the numbers as their values do, with one key for both zeros. -/
def key (x : Binary32) : Int := if x.isNegative then -x.magnitude else x.magnitude

/-- Whether `x` is below `y` as a number. -/
def below (x y : Binary32) : Bool := !x.isNaN && !y.isNaN && decide (x.key < y.key)

/-- Whether `x` and `y` are the same number. -/
def sameNumber (x y : Binary32) : Bool := !x.isNaN && !y.isNaN && decide (x.key = y.key)

/-- The number raised to `lo` if it is below it, and then lowered to `hi` if it is above. -/
def clamp (lo hi x : Binary32) : Binary32 :=
  let raised := if x.below lo then lo else x
  if hi.below raised then hi else raised

/-- The number with the given sign nearest to `num / den`, and of two that are equally near
the one with the even pattern.  The exponent is found first; below the least one the places
of the fraction stay where they are, and past the greatest one there is only infinity. -/
def ofRatio (negative : Bool) (num den : Nat) : Binary32 :=
  let guess : Int := (num.log2 : Int) - den.log2
  let reached := decide (den * twoTo guess.toNat ≤ num * twoTo (-guess).toNat)
  let exponent : Int := max (if reached then guess else guess - 1) (-126)
  let shift : Int := 23 - exponent
  let significand := Decimal.roundDiv (num * twoTo shift.toNat) (den * twoTo (-shift).toNat)
  let pattern :=
    if num = 0 then 0
    else min ((exponent + 126).toNat * twoTo 23 + significand) infinityMagnitude
  ⟨UInt32.ofNat (pattern + if negative then twoTo 31 else 0)⟩

/-- The pattern that stands for no number. -/
def notANumber : Binary32 := ⟨0x7FC00000⟩

/-- The single-precision number nearest to a double-precision one. -/
def ofDouble (x : Float) : Binary32 :=
  match Decimal.exactValue x with
  | .notANumber => notANumber
  | .infinite negative => ⟨if negative then 0xFF800000 else 0x7F800000⟩
  | .finite negative num den => ofRatio negative num den

/-- The number nearest to the decimal `digits / 10 ^ places`. -/
def ofDecimal (digits places : Nat) : Binary32 := ofRatio false digits (tenTo places)

/-- The number zero. -/
def zero : Binary32 := ⟨0⟩

/-- The number one. -/
def one : Binary32 := ⟨0x3F800000⟩

/-- The number two. -/
def two : Binary32 := ⟨0x40000000⟩

end Binary32
end LlmSession
