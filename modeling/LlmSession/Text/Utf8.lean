/-!
# UTF-8: the shape of a byte sequence, and its text

An engine hands out bytes, one token's piece at a time, and a piece may end in the middle
of a character.  Two questions have to be kept apart.

The first is whether the bytes so far could still be completed.  It is answered from the
*shape* alone: a lead byte announces how many continuation bytes follow it, and nothing
else is looked at.  `shape` is that scan, a machine whose only memory is the number of
continuation bytes still owed.

The second is which text the bytes stand for.  Here the encoding is strict: overlong
forms, surrogates and code points past the last plane stand for nothing.  `decodeLossy`
answers for every byte sequence, by putting one replacement character in the place of
each maximal ill-formed part.

## Why the two differ

The sequence `C0 80` has a complete shape and no text: its shape announces one
continuation byte and finds it, but the form is overlong.  So a buffer can be complete and
still need replacement characters, and `shape` must not be read as a test of validity.

## Main definitions

* `Shape`, `shape`: the scan by lead byte.
* `continuation`, `decodeLossy`: the strict reading, with replacement characters.
* `encode`: the bytes of a text.
-/

namespace LlmSession
namespace Utf8

/-! ## The shape of a byte sequence -/

/-- What a scan by lead byte finds at the end of a byte sequence. -/
inductive Shape where
  /-- Every character that was opened has all its bytes. -/
  | complete
  /-- The last character still lacks bytes, and later ones may bring them. -/
  | incomplete
  /-- Some byte stands where it cannot stand, whatever follows. -/
  | malformed
  deriving DecidableEq, Repr

/-- The number of continuation bytes that a lead byte announces: none for `0xxxxxxx`, one
for `110xxxxx`, two for `1110xxxx`, three for `11110xxx`.  No other byte leads. -/
def announced? (b : UInt8) : Option Nat :=
  if b &&& 0x80 = 0x00 then some 0
  else if b &&& 0xE0 = 0xC0 then some 1
  else if b &&& 0xF0 = 0xE0 then some 2
  else if b &&& 0xF8 = 0xF0 then some 3
  else none

/-- A continuation byte has the form `10xxxxxx`. -/
def IsContinuation (b : UInt8) : Prop := b &&& 0xC0 = 0x80

instance (b : UInt8) : Decidable (IsContinuation b) :=
  inferInstanceAs (Decidable (b &&& 0xC0 = 0x80))

/-- The scan, with `owed` continuation bytes still to come for the open character. -/
def shapeFrom : (owed : Nat) → List UInt8 → Shape
  | 0, [] => .complete
  | _ + 1, [] => .incomplete
  | 0, b :: bs =>
    match announced? b with
    | some n => shapeFrom n bs
    | none => .malformed
  | n + 1, b :: bs => if IsContinuation b then shapeFrom n bs else .malformed

/-- The shape of a byte sequence, read from between two characters. -/
def shape (bytes : List UInt8) : Shape := shapeFrom 0 bytes

@[simp] theorem shapeFrom_zero_nil : shapeFrom 0 [] = .complete := rfl

@[simp] theorem shapeFrom_succ_nil (n : Nat) : shapeFrom (n + 1) [] = .incomplete := rfl

@[simp] theorem shape_nil : shape [] = .complete := rfl

theorem shapeFrom_succ_cons (n : Nat) (b : UInt8) (bs : List UInt8) :
    shapeFrom (n + 1) (b :: bs) =
      if IsContinuation b then shapeFrom n bs else .malformed := rfl

/-- Whether every character of the sequence has all its bytes, by shape. -/
def isComplete (bytes : List UInt8) : Bool := shape bytes = .complete

/-! ## The text of a byte sequence -/

/-- The character that stands in the place of an ill-formed part. -/
def replacement : Char := '\uFFFD'

/-- The number of bytes that follow `b` in a well-formed character, if `b` opens one.  The
bytes `C0`, `C1` and those from `F5` on open none. -/
def tailLength? (b : UInt8) : Option Nat :=
  if b < 0x80 then some 0
  else if b < 0xC2 then none
  else if b < 0xE0 then some 1
  else if b < 0xF0 then some 2
  else if b < 0xF5 then some 3
  else none

/-- The least and the greatest second byte after the lead `b`.  The bounds are tighter
than those of a continuation byte exactly where an overlong form, a surrogate or a code
point past the last plane has to be kept out. -/
def secondBounds (b : UInt8) : UInt8 × UInt8 :=
  if b = 0xE0 then (0xA0, 0xBF)
  else if b = 0xED then (0x80, 0x9F)
  else if b = 0xF0 then (0x90, 0xBF)
  else if b = 0xF4 then (0x80, 0x8F)
  else (0x80, 0xBF)

/-- The bytes right after the lead `b` that belong to the same character: at most as many
as `b` asks for, and none from the first one that cannot stand in its place. -/
def continuation (b : UInt8) (bs : List UInt8) : List UInt8 :=
  match bs.take ((tailLength? b).getD 0) with
  | [] => []
  | c :: cs =>
    if (secondBounds b).1 ≤ c ∧ c ≤ (secondBounds b).2 then
      c :: cs.takeWhile fun d => decide (IsContinuation d)
    else []

/-- The bits of the code point that the lead byte itself holds. -/
def leadPayload (b : UInt8) : Nat :=
  if b < 0x80 then b.toNat
  else if b < 0xE0 then b.toNat % 0x20
  else if b < 0xF0 then b.toNat % 0x10
  else b.toNat % 0x08

/-- The code point of a character with lead byte `b` and the given bytes after it. -/
def codePoint (b : UInt8) (tail : List UInt8) : Nat :=
  tail.foldl (fun n c => n * 0x40 + c.toNat % 0x40) (leadPayload b)

/-- The character at the head of a byte sequence: the one that `b` and its continuation
spell, or the replacement character if `b` opens none or its continuation is cut short. -/
def headChar (b : UInt8) (bs : List UInt8) : Char :=
  if tailLength? b = some (continuation b bs).length then
    Char.ofNat (codePoint b (continuation b bs))
  else replacement

/-- The text of a byte sequence, with one replacement character for each maximal part that
begins a character and does not finish it, or that begins none. -/
def decodeLossy : List UInt8 → List Char
  | [] => []
  | b :: bs => headChar b bs :: decodeLossy (bs.drop (continuation b bs).length)
termination_by bytes => bytes.length
decreasing_by
  simp only [List.length_drop, List.length_cons]
  omega

@[simp] theorem decodeLossy_nil : decodeLossy [] = [] := by
  rw [decodeLossy]

theorem decodeLossy_cons (b : UInt8) (bs : List UInt8) :
    decodeLossy (b :: bs) =
      headChar b bs :: decodeLossy (bs.drop (continuation b bs).length) := by
  rw [decodeLossy]

/-- The text of a byte sequence, as a string. -/
def text (bytes : List UInt8) : String := String.ofList (decodeLossy bytes)

/-- The bytes of a text. -/
def encode (s : String) : List UInt8 := s.toList.flatMap String.utf8EncodeChar

/-- The text of a byte sequence that is well-formed throughout, and nothing otherwise. -/
def decode? (bytes : List UInt8) : Option String :=
  String.fromUTF8? (ByteArray.mk bytes.toArray)

end Utf8
end LlmSession
