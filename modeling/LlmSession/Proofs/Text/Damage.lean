import LlmSession.Proofs.Text.Pieces
import LlmSession.Proofs.Text.Reading

/-!
# What corrupt bytes damage

A buffer that can never become a text is not kept: it is released at once, all of it, and whatever
cannot be read is replaced.  The reply goes on, but a buffer is released as a whole, with what may
be the first bytes of a good character at its end.  The rest of that character then comes to an
empty buffer, where it continues nothing.  So corrupt bytes may damage one character more than
themselves, and whether they do depends on how the stream was cut.

## Stretches

A stream falls into `stretches`, each of which ends with a piece that brings such a release.  What
is released elsewhere may be cut and put together at will, because bytes of complete shape can be
read apart from what follows them.  So the text of a stream is the text of its stretches
(`toList_reading_eq`), and it is the text of the whole exactly if no stretch ends inside a part of
the whole (`reading_eq_text_iff`).

## Main statements

* `Accumulator.stretches`, `Accumulator.reading`: the stretches and the text of a stream.
* `Accumulator.reading_eq_text_iff`: what becomes of any stream of bytes.
-/

namespace LlmSession

open Utf8

namespace Accumulator

/-- The text of a stream: what is released for its pieces, and a reading of what is pending then. -/
def reading (a : Accumulator) (pieces : List (List UInt8)) : String :=
  a.released pieces ++ text (a.after pieces).pending

/-- The stretches of a stream of which the bytes `begun` came before: each ends with a piece with
which malformed bytes are released, and the last with the stream. -/
def stretches (a : Accumulator) (begun : List UInt8) : List (List UInt8) → List (List UInt8)
  | [] => [begun]
  | piece :: pieces =>
    if shape (a.pending ++ piece) = .malformed then
      (begun ++ piece) :: (a.push piece).2.stretches [] pieces
    else (a.push piece).2.stretches (begun ++ piece) pieces

/-- The stretches, put together, are the stream. -/
theorem flatten_stretches (a : Accumulator) (begun : List UInt8) (pieces : List (List UInt8)) :
    (a.stretches begun pieces).flatten = begun ++ pieces.flatten := by
  induction pieces generalizing a begun with
  | nil => rw [stretches, List.flatten_singleton, List.flatten_nil, List.append_nil]
  | cons piece pieces ih =>
    rw [stretches]
    split
    · rw [List.flatten_cons, ih, List.nil_append, List.flatten_cons, List.append_assoc]
    · rw [ih, List.flatten_cons, List.append_assoc]

theorem reading_cons (a : Accumulator) (piece : List UInt8) (pieces : List (List UInt8)) :
    (a.reading (piece :: pieces)).toList =
      (a.push piece).1.toList ++ ((a.push piece).2.reading pieces).toList := by
  rw [reading, released, after, String.append_assoc, String.toList_append]
  rfl

/-- Bytes of complete shape are read apart from what follows them. -/
theorem decodeLossy_append_of_shape_eq_complete {bytes : List UInt8}
    (h : shape bytes = .complete) (rest : List UInt8) :
    decodeLossy (bytes ++ rest) = decodeLossy bytes ++ decodeLossy rest :=
  decodeLossy_append_iff.2 (between_of_shapeFrom_eq_complete h rest)

/-- **The text of a stream** goes stretch by stretch.  Of the first one the bytes `done` have been
released, and they are of complete shape. -/
theorem decodeLossy_append_toList_reading (a : Accumulator) {done : List UInt8}
    (h : shape done = .complete) (pieces : List (List UInt8)) :
    decodeLossy done ++ (a.reading pieces).toList =
      (a.stretches (done ++ a.pending) pieces).flatMap decodeLossy := by
  induction pieces generalizing a done with
  | nil =>
    rw [stretches, List.flatMap_singleton, decodeLossy_append_of_shape_eq_complete h, reading,
      released, after, String.empty_append, text, String.toList_ofList]
  | cons piece pieces ih =>
    have hdone := decodeLossy_append_of_shape_eq_complete h (a.pending ++ piece)
    rw [reading_cons, stretches, List.append_assoc done]
    cases hs : shape (a.pending ++ piece) with
    | complete =>
      -- what was released and what is released now are one beginning of the stretch
      have hmore : shape (done ++ (a.pending ++ piece)) = .complete :=
        (shapeFrom_append_of_eq_complete h _).trans hs
      have hnext := ih empty hmore
      rw [pending_empty, List.append_nil] at hnext
      rw [if_neg (by decide), push_of_ne_incomplete (by rw [hs]; decide), ← hnext, hdone, text,
        String.toList_ofList, List.append_assoc]
    | incomplete =>
      rw [if_neg (by decide), push_of_incomplete hs]
      exact ih { pending := a.pending ++ piece } h
    | malformed =>
      have hnext := ih empty shape_nil
      rw [decodeLossy_nil, List.nil_append, pending_empty, List.append_nil] at hnext
      rw [if_pos rfl, push_of_ne_incomplete (by rw [hs]; decide), List.flatMap_cons, ← hnext, hdone,
        text, String.toList_ofList, List.append_assoc]

theorem toList_reading_eq (pieces : List (List UInt8)) :
    (empty.reading pieces).toList = (empty.stretches [] pieces).flatMap decodeLossy := by
  have h := empty.decodeLossy_append_toList_reading shape_nil pieces
  rwa [decodeLossy_nil, List.nil_append] at h

/-- **What becomes of any stream of bytes**, however it was cut into pieces.  Its text is that of
its stretches, one after the other.  Within a stretch corrupt bytes damage only themselves: a
character all of whose bytes lie in one stretch is read back, whatever stands in front of it.  The
text is that of the whole sequence exactly if no stretch ends inside a character of it, or inside
another part that the reading of the whole replaces as one. -/
theorem reading_eq_text_iff (pieces : List (List UInt8)) :
    let stretches := empty.stretches [] pieces
    stretches.flatten = pieces.flatten ∧
      (empty.reading pieces).toList = stretches.flatMap decodeLossy ∧
      (∀ stretch ∈ stretches, ∀ before c rest,
        stretch = before ++ String.utf8EncodeChar c ++ rest →
          decodeLossy stretch = decodeLossy before ++ c :: decodeLossy rest) ∧
      (empty.reading pieces = text pieces.flatten ↔
        ∀ k, Between pieces.flatten (stretches.take k).flatten.length) := by
  intro stretches
  have hflatten : stretches.flatten = pieces.flatten := flatten_stretches empty [] pieces
  refine ⟨hflatten, toList_reading_eq pieces, ?_, ?_⟩
  · rintro stretch - before c rest rfl
    exact decodeLossy_append_utf8EncodeChar_append before rest c
  · rw [← hflatten, ← flatMap_decodeLossy_eq_iff, ← toList_reading_eq, ← String.toList_inj, text,
      String.toList_ofList]

/-- A corrupt byte and the first half of a good character, and then its other half.  The stretch
ends between the halves, and both are replaced.  Had the corrupt byte come alone, the character
would have been read. -/
theorem reading_ne_text_of_cut_character :
    let pieces : List (List UInt8) := [[0x80, 0xC3], [0xA9]]
    let others : List (List UInt8) := [[0x80], [0xC3, 0xA9]]
    others.flatten = pieces.flatten ∧ text pieces.flatten = "\uFFFDé" ∧
      empty.reading others = "\uFFFDé" ∧ empty.reading pieces = "\uFFFD\uFFFD\uFFFD" ∧
      empty.reading pieces ≠ text pieces.flatten := by
  decide +kernel

end Accumulator
end LlmSession
