import LlmSession.Binary32
import LlmSession.Power

/-!
# Numerals

A number in a JSON file is a numeral, and what number it is depends on who asks.  A numeral
is kept as its digits, so that one which nobody asks for need not stand for any number.

## How a numeral becomes a number

The digits are gathered into a 64-bit significand, and those that do not fit any more only
count.  A numeral without a point and an exponent whose significand took all its digits is an
integer, if it is in the range of a signed or an unsigned 64-bit word; minus zero is none.
Everything else is a double: the significand is rounded to a double, and is then multiplied
or divided by a power of ten.  So two roundings take place, and the result is not always the
double nearest to the decimal.  A result past the greatest double is no number.

## Main definitions

* `Numeral`, `Numeral.chars`: the digits and their spelling.
* `Numeral.number?`: the number.
-/

namespace LlmSession
namespace Json

/-- A decimal numeral as it is spelled. -/
structure Numeral where
  /-- Whether it begins with a minus. -/
  negative : Bool := false
  /-- The digits in front of the point. -/
  whole : List Char
  /-- The digits after the point; none if there is no point. -/
  fraction : List Char := []
  /-- Whether the exponent is negative, and its digits. -/
  exponent : Option (Bool × List Char) := none
  deriving DecidableEq, Repr

/-- A number that a numeral stands for. -/
inductive Number where
  /-- An integer that fits a signed or an unsigned 64-bit word. -/
  | integer (n : Int)
  /-- Any other number, as a double. -/
  | double (x : Float)

/-! ## Spelling -/

namespace Numeral

/-- The spelling of an exponent, always with its sign. -/
def exponentChars : Option (Bool × List Char) → List Char
  | none => []
  | some (negative, digits) => 'e' :: (if negative then '-' else '+') :: digits

/-- The spelling of a numeral. -/
def chars (n : Numeral) : List Char :=
  (if n.negative then ['-'] else []) ++ n.whole ++
    (if n.fraction = [] then [] else '.' :: n.fraction) ++ exponentChars n.exponent

/-- The numeral of a natural number. -/
def ofNat (n : Nat) : Numeral where
  whole := Nat.toDigits 10 n

/-- The numeral of an integer. -/
def ofInt (n : Int) : Numeral where
  negative := decide (n < 0)
  whole := Nat.toDigits 10 n.natAbs

end Numeral

/-! ## Reading -/

/-- The longest run of digits at the beginning, and what follows it. -/
def digitRun (cs : List Char) : List Char × List Char :=
  (cs.takeWhile Char.isDigit, cs.dropWhile Char.isDigit)

/-- A run of at least one digit. -/
def someDigits? (cs : List Char) : Option (List Char × List Char) :=
  if (digitRun cs).1 = [] then none else some (digitRun cs)

/-- The digits after a point, if there is one. -/
def readFraction (cs : List Char) : Option (List Char × List Char) :=
  match cs with
  | '.' :: rest => someDigits? rest
  | _ => some ([], cs)

/-- The sign of an exponent, which may be left out. -/
def readExponentSign (cs : List Char) : Bool × List Char :=
  match cs with
  | '+' :: rest => (false, rest)
  | '-' :: rest => (true, rest)
  | _ => (false, cs)

/-- The exponent, if there is one. -/
def readExponent (cs : List Char) : Option (Option (Bool × List Char) × List Char) :=
  match cs with
  | 'e' :: rest | 'E' :: rest =>
    match someDigits? (readExponentSign rest).2 with
    | some (digits, rest') => some (some ((readExponentSign rest).1, digits), rest')
    | none => none
  | _ => some (none, cs)

/-- The sign of a numeral. -/
def readMinus (cs : List Char) : Bool × List Char :=
  match cs with
  | '-' :: rest => (true, rest)
  | _ => (false, cs)

/-- Whether the digits in front of the point are as they have to be: there is one, and a zero
in front stands alone. -/
def wholeAllowed : List Char → Bool
  | [] => false
  | ['0'] => true
  | c :: _ => c != '0'

/-- A numeral at the beginning of a text, and what follows it. -/
def readNumeral (cs : List Char) : Option (Numeral × List Char) :=
  let (negative, cs) := readMinus cs
  let (whole, cs) := digitRun cs
  if wholeAllowed whole then
    match readFraction cs with
    | none => none
    | some (fraction, cs) =>
      match readExponent cs with
      | none => none
      | some (exponent, cs) => some ({ negative, whole, fraction, exponent }, cs)
  else none

/-! ## The number -/

/-- Appends digits to a number as long as it stays below a limit; the digits from the first
that does not fit on are left over. -/
def gather (limit : Nat) : Nat → List Char → Nat × List Char
  | n, [] => (n, [])
  | n, d :: ds =>
    if limit ≤ 10 * n + (d.toNat - '0'.toNat) then (n, d :: ds)
    else gather limit (10 * n + (d.toNat - '0'.toNat)) ds

/-- The greatest power of ten that a double can be multiplied by. -/
def greatestPower : Nat := 308

/-- `x * 10 ^ exponent`.  A small result is reached by more than one division; there is none
past the greatest double. -/
def scaleByTen? (x : Float) (exponent : Int) : Option Float :=
  if exponent.natAbs ≤ greatestPower then
    if 0 ≤ exponent then
      let product := x * Float.ofScientific 1 false exponent.natAbs
      if product.isInf then none else some product
    else some (x / Float.ofScientific 1 false exponent.natAbs)
  else if x == 0.0 then some x
  else if 0 ≤ exponent then none
  else scaleByTen? (x / Float.ofScientific 1 false greatestPower) (exponent + greatestPower)
termination_by (-exponent).toNat
decreasing_by
  simp only [greatestPower] at *
  omega

/-- A double with a sign. -/
def signed (negative : Bool) (x : Float) : Float := if negative then -x else x

namespace Numeral

/-- The double of `significand * 10 ^ exponent`. -/
def double? (negative : Bool) (significand : Nat) (exponent : Int) : Option Number :=
  (scaleByTen? (Float.ofNat significand) exponent).map fun x => .double (signed negative x)

/-- The number that a numeral stands for. -/
def number? (n : Numeral) : Option Number :=
  let (significand, left) := gather (twoTo 64) 0 n.whole
  match n.fraction, n.exponent, left with
  | [], none, [] =>
    if n.negative then
      if significand = 0 ∨ twoTo 63 < significand then
        some (.double (signed true (Float.ofNat significand)))
      else some (.integer (-(significand : Int)))
    else some (.integer significand)
  | _, _, _ =>
    let (significand, unused) := gather (twoTo 64) significand n.fraction
    let shift : Int := left.length - (n.fraction.length - unused.length : Nat)
    match n.exponent with
    | none => double? n.negative significand shift
    | some (negativeExponent, digits) =>
      match gather (twoTo 31) 0 digits with
      | (exponent, []) =>
        double? n.negative significand
          (if negativeExponent then shift - exponent else shift + exponent)
      | (_, _ :: _) =>
        if significand ≠ 0 ∧ !negativeExponent then none
        else some (.double (signed n.negative 0.0))

end Numeral

/-! ## Numbers of a given kind -/

namespace Number

/-- The natural number below a bound. -/
def natBelow? (bound : Nat) : Number → Option Nat
  | .integer n => if 0 ≤ n ∧ n < bound then some n.toNat else none
  | .double _ => none

/-- The signed 32-bit word. -/
def int32? : Number → Option Int32
  | .integer n => if -(twoTo 31 : Int) ≤ n ∧ n < (twoTo 31 : Int) then some (Int32.ofInt n) else none
  | .double _ => none

/-- The nearest single-precision number. -/
def binary32 : Number → Binary32
  | .integer n => .ofRatio (decide (n < 0)) n.natAbs 1
  | .double x => .ofDouble x

end Number
end Json
end LlmSession
