import LlmSession.Proofs.Text.Release

/-!
# A stream of pieces

The bytes of a reply come in pieces, and the pieces are pushed to one accumulator, one after the
other.  What can be said of a single push (`Accumulator.Holds.push`) goes on for a whole stream, as
long as the stream is the beginning of a text: at every moment what was released and what is pending
are, put together, what was pushed.

The hypothesis is about the whole stream, but each push needs it for the bytes pushed so far only,
and a beginning of a beginning is one.

## Main definitions

* `Accumulator.after`, `Accumulator.released`: what pieces leave behind, and what they release.

## Main statements

* `Accumulator.Holds.after`: more pieces.
* `Accumulator.encode_released_append_pending`: a stream that begins a text.
-/

namespace LlmSession

open Utf8

namespace Accumulator

/-- The accumulator after some pieces. -/
def after (a : Accumulator) : List (List UInt8) → Accumulator
  | [] => a
  | piece :: pieces => (a.push piece).2.after pieces

/-- The text that is released for some pieces. -/
def released (a : Accumulator) : List (List UInt8) → String
  | [] => ""
  | piece :: pieces => (a.push piece).1 ++ (a.push piece).2.released pieces

theorem after_append (a : Accumulator) (pieces more : List (List UInt8)) :
    a.after (pieces ++ more) = (a.after pieces).after more := by
  induction pieces generalizing a with
  | nil => rfl
  | cons piece pieces ih => exact ih (a.push piece).2

theorem released_append (a : Accumulator) (pieces more : List (List UInt8)) :
    a.released (pieces ++ more) = a.released pieces ++ (a.after pieces).released more := by
  induction pieces generalizing a with
  | nil => exact String.empty_append.symm
  | cons piece pieces ih =>
    rw [List.cons_append, released, ih, released, String.append_assoc]
    rfl

variable {a : Accumulator} {given piece : List UInt8} {pieces : List (List UInt8)} {out : String}

/-- What is pending is nothing exactly when what was given is well-formed. -/
theorem Holds.pending_eq_nil_iff (h : a.Holds given out) : a.pending = [] ↔ WellFormed given := by
  rw [h.given_eq, wellFormed_encode_append_iff]
  constructor
  · intro hnil
    rw [hnil]
    exact wellFormed_nil
  · exact h.pending_eq

/-- **More pieces**, as long as the bytes can still become well-formed. -/
theorem Holds.after (h : a.Holds given out) (hc : Completable (given ++ pieces.flatten)) :
    (a.after pieces).Holds (given ++ pieces.flatten) (out ++ a.released pieces) := by
  induction pieces generalizing a given out with
  | nil =>
    rw [List.flatten_nil, List.append_nil, released, String.append_empty]
    exact h
  | cons piece pieces ih =>
    rw [List.flatten_cons, ← List.append_assoc] at hc ⊢
    have hpushed := (h.push (hc.of_prefix (List.prefix_append _ _))).1
    rw [released, ← String.append_assoc]
    exact ih hpushed hc

theorem holds_after_of_completable (hc : Completable pieces.flatten) :
    (empty.after pieces).Holds pieces.flatten (empty.released pieces) := by
  have h : (empty.after pieces).Holds ([] ++ pieces.flatten) ("" ++ empty.released pieces) :=
    holds_empty.after hc
  rwa [List.nil_append, String.empty_append] at h

/-- **On a stream that begins a text nothing is lost, replaced or held back in vain.**  However the
stream was cut, and be some of the pieces empty: after each of them the bytes of what was released,
followed by what is pending, are the bytes that were pushed.  Nothing is pending exactly when these
are well-formed.  The next piece takes part with its own bytes only: what it releases and what is
pending then are what was pending before and the piece. -/
theorem encode_released_append_pending (hc : Completable pieces.flatten) (k : Nat) :
    let given := (pieces.take k).flatten
    let a := empty.after (pieces.take k)
    encode (empty.released (pieces.take k)) ++ a.pending = given ∧
      (a.pending = [] ↔ WellFormed given) ∧
      ∀ piece, pieces[k]? = some piece →
        encode (a.push piece).1 ++ (a.push piece).2.pending = a.pending ++ piece := by
  intro given a
  have hgiven (n : Nat) : Completable (pieces.take n).flatten :=
    hc.of_prefix ⟨(pieces.drop n).flatten, by rw [← List.flatten_append, List.take_append_drop]⟩
  have hholds := holds_after_of_completable (hgiven k)
  refine ⟨hholds.given_eq.symm, hholds.pending_eq_nil_iff, fun piece hpiece => ?_⟩
  have hnext : (pieces.take (k + 1)).flatten = given ++ piece := by
    rw [List.take_add_one, hpiece, List.flatten_append, Option.toList_some, List.flatten_singleton]
  have hpushed := (hholds.push (hnext ▸ hgiven (k + 1))).1.given_eq
  rw [hholds.given_eq, encode_append, List.append_assoc, List.append_assoc] at hpushed
  exact (List.append_cancel_left hpushed).symm

/-- A stream that ends inside its third character.  The second came in two pieces with an empty one
between them, and is held back once more because the third was opened in the same piece. -/
theorem encode_released_append_pending_of_cut_characters :
    let pieces : List (List UInt8) := [[0x68], [0xC3], [], [0xA9, 0xE2], [0x82]]
    Completable pieces.flatten ∧ empty.released pieces = "h" ∧
      (empty.after (pieces.take 4)).pending = [0xC3, 0xA9, 0xE2] ∧
      encode (empty.released (pieces.take 4)) ++ (empty.after (pieces.take 4)).pending =
        [0x68, 0xC3, 0xA9, 0xE2] ∧
      ¬ WellFormed [0x68, 0xC3, 0xA9, 0xE2] := by
  intro pieces
  have hc : Completable pieces.flatten := ⟨[0xAC], "hé€", by decide +kernel⟩
  have hpending : (empty.after (pieces.take 4)).pending = [0xC3, 0xA9, 0xE2] := by decide +kernel
  obtain ⟨hgiven, hiff, -⟩ := encode_released_append_pending hc 4
  refine ⟨hc, by decide +kernel, hpending, hgiven, fun hw => ?_⟩
  rw [hiff.2 hw] at hpending
  exact nomatch hpending

end Accumulator
end LlmSession
