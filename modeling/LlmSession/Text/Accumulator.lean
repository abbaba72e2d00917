import LlmSession.Text.Utf8

/-!
# Holding back an unfinished character

The pieces of a turn are released as text, and a character whose bytes are not all there
cannot be released yet.  An `Accumulator` holds the bytes that wait.

The rule is all or nothing: after a piece is pushed, either the whole buffer is released
or none of it.  An unfinished character at the end therefore also holds back the complete
text in front of it.  A buffer that can never become complete is not held: it is released
at once with replacement characters, since keeping it would hold back every later piece.

## Main definitions

* `Accumulator.push`: takes a piece and says which text is released now.
-/

namespace LlmSession

/-- Bytes of a turn that wait for the rest of their character. -/
structure Accumulator where
  /-- The bytes held back, oldest first. -/
  pending : List UInt8 := []
  deriving DecidableEq, Repr

namespace Accumulator

/-- An accumulator that holds nothing. -/
def empty : Accumulator := {}

/-- Takes in one piece.  The text released now is that of the whole buffer, unless the
buffer ends inside a character, and then there is none. -/
def push (a : Accumulator) (piece : List UInt8) : String × Accumulator :=
  let held := a.pending ++ piece
  match Utf8.shape held with
  | .incomplete => ("", { pending := held })
  | .complete | .malformed => (Utf8.text held, empty)

/-- Forgets the bytes held back. -/
def reset (_ : Accumulator) : Accumulator := empty

@[simp] theorem pending_empty : empty.pending = [] := rfl

@[simp] theorem pending_reset (a : Accumulator) : a.reset.pending = [] := rfl

theorem push_of_incomplete {a : Accumulator} {piece : List UInt8}
    (h : Utf8.shape (a.pending ++ piece) = .incomplete) :
    a.push piece = ("", { pending := a.pending ++ piece }) := by
  simp [push, h]

theorem push_of_ne_incomplete {a : Accumulator} {piece : List UInt8}
    (h : Utf8.shape (a.pending ++ piece) ≠ .incomplete) :
    a.push piece = (Utf8.text (a.pending ++ piece), empty) := by
  unfold push
  cases hs : Utf8.shape (a.pending ++ piece) with
  | incomplete => exact absurd hs h
  | complete => simp [hs]
  | malformed => simp [hs]

end Accumulator
end LlmSession
