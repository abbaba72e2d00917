import LlmSession.Binary32
import LlmSession.Json.Numeral
import LlmSession.Power

/-!
# The shortest decimal that reads back

Many decimals round to one binary number.  Among those with the fewest digits the one nearest
to the number is taken, and of two that are equally near the one with the even last digit.

The numbers that round to a given one form an interval around it.  Everything is measured in
quarters of the last binary place: the number is `4 * m`, its interval ends two quarters above
it and two below, or one below where the places get narrower.  The ends belong to it exactly
if `m` is even.  On a decimal grid the candidates are the two neighbours of the number, so the
first grid that has a candidate in the interval has the fewest digits.

## Main definitions

* `Binary32.span`: a number with its interval.
* `shortestDigits`: the digits, and the power of ten of the first of them.
* `Json.Numeral.ofBinary32`: the numeral.
-/

namespace LlmSession

/-- A positive number with the interval of the numbers that round to it, all as multiples of
`num / den`. -/
structure Span where
  /-- The lower end. -/
  low : Nat
  /-- The number. -/
  mid : Nat
  /-- The upper end. -/
  high : Nat
  /-- Whether the ends belong to the interval. -/
  closed : Bool
  /-- The numerator of the unit. -/
  num : Nat
  /-- The denominator of the unit. -/
  den : Nat
  deriving DecidableEq, Repr

namespace Span

/-- Whether `candidate * 10 ^ place` is in the interval. -/
def contains (s : Span) (candidate : Nat) (place : Int) : Bool :=
  let value := candidate * tenTo place.toNat * s.den
  let scale := s.num * tenTo (-place).toNat
  if s.closed then decide (s.low * scale ≤ value ∧ value ≤ s.high * scale)
  else decide (s.low * scale < value ∧ value < s.high * scale)

/-- The multiple of `10 ^ place` just below the number, or the number itself. -/
def below (s : Span) (place : Int) : Nat :=
  s.mid * s.num * tenTo (-place).toNat / (s.den * tenTo place.toNat)

/-- The multiple of `10 ^ place` that is nearest to the number. -/
def nearest (s : Span) (place : Int) : Nat :=
  Decimal.roundDiv (s.mid * s.num * tenTo (-place).toNat) (s.den * tenTo place.toNat)

/-- A multiple of `10 ^ place` in the interval: the neighbour of the number that is nearer, or
else the other one. -/
def candidate? (s : Span) (place : Int) : Option Nat :=
  let near := s.nearest place
  let other := if near = s.below place then near + 1 else s.below place
  if s.contains near place then some near
  else if s.contains other place then some other
  else none

/-- The power of ten of the number's first digit. -/
def magnitude (s : Span) : Int :=
  let num := s.mid * s.num
  if s.den ≤ num then ((Nat.toDigits 10 (num / s.den)).length : Int) - 1
  else -((Nat.toDigits 10 ((s.den + num - 1) / num - 1)).length : Int)

/-- The first candidate on the grids from `place` down, with the place that it was found at;
there are `grids` of them. -/
def firstCandidate (s : Span) (place : Int) : (grids : Nat) → Nat × Int
  | 0 => (s.nearest place, place)
  | grids + 1 =>
    match s.candidate? place with
    | some c => (c, place)
    | none => firstCandidate s (place - 1) grids

end Span

/-- Digits without the zeros at their end. -/
def trimZeros (digits : List Char) : List Char :=
  (digits.reverse.dropWhile (· = '0')).reverse

/-- The shortest digits of a number, and the power of ten of the first of them.  Nine digits
tell any two single-precision numbers apart. -/
def shortestDigits (s : Span) : List Char × Int :=
  let (c, place) := s.firstCandidate s.magnitude 8
  let digits := Nat.toDigits 10 c
  (trimZeros digits, place + digits.length - 1)

/-- The span of the magnitude of a finite number other than zero. -/
def Binary32.span (x : Binary32) : Span :=
  let exponent := x.magnitude / twoTo 23
  let fraction := x.magnitude % twoTo 23
  let significand := if exponent = 0 then fraction else twoTo 23 + fraction
  let position := max exponent 1
  -- the unit is a quarter of the last place, `2 ^ (position - 152)`
  { low := 4 * significand - if fraction = 0 ∧ 1 < exponent then 1 else 2
    mid := 4 * significand
    high := 4 * significand + 2
    closed := significand % 2 = 0
    num := twoTo (position - 152)
    den := twoTo (152 - position) }

namespace Json

/-- The powers of ten of the first digit for which a number is written without an exponent:
the least and the greatest. -/
def plainRange : Int × Int := (-6, 12)

/-- The numeral of some digits, of which the first has the given power of ten.  Without an
exponent there is a digit on either side of the point. -/
def Numeral.ofDigits (negative : Bool) (digits : List Char) (power : Int) : Numeral :=
  if power < plainRange.1 ∨ plainRange.2 < power then
    { negative
      whole := digits.take 1
      fraction := digits.drop 1
      exponent := some (decide (power < 0), Nat.toDigits 10 power.natAbs) }
  else if power < 0 then
    { negative
      whole := ['0']
      fraction := List.replicate (power.natAbs - 1) '0' ++ digits }
  else
    let count := power.toNat + 1
    let fraction := digits.drop count
    { negative
      whole := digits.take count ++ List.replicate (count - digits.length) '0'
      fraction := if fraction = [] then ['0'] else fraction }

/-- The numeral of a finite single-precision number. -/
def Numeral.ofBinary32 (x : Binary32) : Numeral :=
  if x.magnitude = 0 then { negative := x.isNegative, whole := ['0'], fraction := ['0'] }
  else
    let (digits, power) := shortestDigits x.span
    .ofDigits x.isNegative digits power

end Json
end LlmSession
