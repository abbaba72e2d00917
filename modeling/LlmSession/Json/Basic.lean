import LlmSession.Json.Numeral
import LlmSession.Json.Quoted
import LlmSession.Power

/-!
# JSON values

A JSON value as it is spelled: numerals keep their digits, text may hold half a pair, and an
object keeps its members in their order with all repetitions.  Whether a part stands for a
number, a text or a record is up to whoever reads it; a part that nobody reads has only to be
spelled well.
-/

namespace LlmSession

/-- A JSON value. -/
inductive Json where
  /-- The value `null`. -/
  | null
  /-- A truth value. -/
  | bool (b : Bool)
  /-- A number. -/
  | number (n : Json.Numeral)
  /-- A text. -/
  | text (units : List Json.TextUnit)
  /-- A list of values. -/
  | array (items : List Json)
  /-- A list of named values. -/
  | object (members : List (List Json.TextUnit × Json))
  deriving Repr

namespace Json

/-- A text as a value. -/
def ofString (s : String) : Json := .text (unitsOf s)

/-- A natural number as a value. -/
def ofNat (n : Nat) : Json := .number (.ofNat n)

/-- An integer as a value. -/
def ofInt (n : Int) : Json := .number (.ofInt n)

/-- Named values as a value. -/
def ofFields (fields : List (String × Json)) : Json :=
  .object (fields.map fun f => (unitsOf f.1, f.2))

/-! ## Values of a given kind -/

/-- The truth value. -/
def toBool? : Json → Option Bool
  | .bool b => some b
  | _ => none

/-- The text. -/
def toString? : Json → Option String
  | .text units => textOf? units
  | _ => none

/-- The number. -/
def toNumber? : Json → Option Number
  | .number n => n.number?
  | _ => none

/-- The natural number below a bound. -/
def natBelow? (bound : Nat) (v : Json) : Option Nat := v.toNumber?.bind (Number.natBelow? bound)

/-- The unsigned 32-bit word. -/
def toUInt32? (v : Json) : Option UInt32 := (v.natBelow? (twoTo 32)).map UInt32.ofNat

/-- The unsigned 64-bit word. -/
def toUInt64? (v : Json) : Option UInt64 := (v.natBelow? (twoTo 64)).map UInt64.ofNat

/-- The signed 32-bit word. -/
def toInt32? (v : Json) : Option Int32 := v.toNumber?.bind Number.int32?

/-- The single-precision number. -/
def toBinary32? (v : Json) : Option Binary32 := v.toNumber?.map Number.binary32

/-- The items, each of a given kind. -/
def toList? {α : Type} (item? : Json → Option α) : Json → Option (List α)
  | .array items => items.mapM item?
  | _ => none

/-- The value of a kind, or none of it for `null`. -/
def orNull? {α : Type} (value? : Json → Option α) : Json → Option (Option α)
  | .null => some none
  | v => (value? v).map some

/-- One of some choices, by its name.  The name is a text, or the only member of an object
whose value is `null`. -/
def choice? {α : Type} (named : String → Option α) : Json → Option α
  | .text units => (textOf? units).bind named
  | .object [(units, .null)] => (textOf? units).bind named
  | _ => none

end Json
end LlmSession
