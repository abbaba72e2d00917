import LlmSession.Decimal.Rounding
import LlmSession.Power

/-!
# A fixed number of places

The text of a number with a fixed number of digits after the point.  The exact value of the
number is rounded once, and of two texts that are equally near the one with the even last
digit is taken.
-/

namespace LlmSession
namespace Decimal

/-- The decimal digits of a natural number, with zeros in front if there are fewer than
`width`. -/
def paddedDigits (width n : Nat) : List Char :=
  let digits := Nat.toDigits 10 n
  List.replicate (width - digits.length) '0' ++ digits

/-- The text of `num / den` with `places` digits after the point. -/
def fixedQuotient (places num den : Nat) : List Char :=
  let units := roundDiv (num * tenTo places) den
  Nat.toDigits 10 (units / tenTo places) ++ '.' :: paddedDigits places (units % tenTo places)

/-- The text of a double-precision number with `places` digits after the point. -/
def fixed (places : Nat) (x : Float) : String :=
  match exactValue x with
  | .notANumber => "NaN"
  | .infinite negative => if negative then "-inf" else "inf"
  | .finite negative num den =>
    String.ofList ((if negative then ['-'] else []) ++ fixedQuotient places num den)

end Decimal
end LlmSession
