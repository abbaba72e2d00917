import LlmSession.Proofs.Text.WellFormed
import LlmSession.Text.Accumulator
import Mathlib.Order.Bounds.Basic

/-!
# What an accumulator releases

An accumulator gets the bytes of a turn in parts, and each part ends at some offset of the
turn's text.  The whole buffer is released or none of it, so what has been released ends at
one of these offsets, the *cuts*.

## The longest well-formed cut

On the beginning of a well-formed sequence the rule is as good as it can be for such a rule:
what has been released is the longest well-formed beginning that ends at a cut (`IsReleased`).
Nothing is replaced, and nothing is released twice.  But complete characters in front of an
unfinished one stay pending unless a cut lies right between them, and only a later cut can
bring them.

## Main statements

* `Accumulator.Holds.push`: what was released and what is pending is what was given.
* `IsReleased.extend`: one more cut.
* `IsReleased.prefix_iff`: when what stands in front of an unfinished character is released.
-/

namespace LlmSession

open Utf8

/-! ## One part -/

namespace Accumulator

/-- After the bytes `given` the text `out` has been released, and the rest is pending.  What
is pending is not well-formed, or there is nothing. -/
structure Holds (a : Accumulator) (given : List UInt8) (out : String) : Prop where
  given_eq : given = encode out ++ a.pending
  pending_eq : WellFormed a.pending → a.pending = []

theorem holds_empty : empty.Holds [] "" := ⟨rfl, fun _ => rfl⟩

/-- Whoever was given well-formed bytes has released them all. -/
theorem Holds.encode_eq {a : Accumulator} {given : List UInt8} {out : String}
    (h : a.Holds given out) (hw : WellFormed given) : encode out = given := by
  have hpending : WellFormed a.pending := by
    rwa [h.given_eq, wellFormed_encode_append_iff] at hw
  rw [h.given_eq, h.pending_eq hpending, List.append_nil]

/-- **One more part**, as long as the bytes can still become well-formed.  If they are not,
nothing is released. -/
theorem Holds.push {a : Accumulator} {given piece : List UInt8} {out : String}
    (h : a.Holds given out) (hc : Completable (given ++ piece)) :
    (a.push piece).2.Holds (given ++ piece) (out ++ (a.push piece).1) ∧
      (WellFormed (given ++ piece) ∨ (a.push piece).1 = "") := by
  have hgiven : given ++ piece = encode out ++ (a.pending ++ piece) := by
    rw [h.given_eq, List.append_assoc]
  rw [hgiven] at hc ⊢
  rcases (completable_encode_append_iff.1 hc).shape_cases with ⟨hw, hs⟩ | ⟨hw, hs⟩
  · -- the buffer is complete, and all of it is released
    rw [push_of_ne_incomplete (by rw [hs]; decide)]
    refine ⟨⟨?_, fun _ => rfl⟩, Or.inl (wellFormed_encode_append_iff.2 hw)⟩
    rw [encode_append, hw.encode_text, pending_empty, List.append_nil]
  · rw [push_of_incomplete hs]
    refine ⟨⟨?_, fun hp => absurd hp hw⟩, Or.inr rfl⟩
    rw [String.append_empty]

end Accumulator

/-! ## All parts -/

/-- The text `out` is the longest well-formed beginning of `bytes` that ends at a cut. -/
def IsReleased (bytes : List UInt8) (cuts : Set Nat) (out : String) : Prop :=
  encode out <+: bytes ∧ IsGreatest {e | e ∈ cuts ∧ WellFormed (bytes.take e)} (encode out).length

namespace IsReleased

variable {bytes : List UInt8} {cuts : Set Nat} {out : String}

theorem take_length (h : IsReleased bytes cuts out) :
    bytes.take (encode out).length = encode out :=
  (List.prefix_iff_eq_take.1 h.1).symm

/-- Before the first part nothing is released. -/
theorem nil : IsReleased [] {0} "" :=
  ⟨List.prefix_rfl, ⟨rfl, wellFormed_nil⟩, fun _ he => he.1.le⟩

/-- Bytes that are added behind the last cut change nothing. -/
theorem append (h : IsReleased bytes cuts out) (more : List UInt8)
    (hcuts : ∀ e ∈ cuts, e ≤ bytes.length) : IsReleased (bytes ++ more) cuts out := by
  refine ⟨h.1.trans (List.prefix_append bytes more), ⟨h.2.1.1, ?_⟩, fun e he => ?_⟩
  · rw [List.take_append_of_le_length h.1.length_le, h.take_length]
    exact wellFormed_encode out
  · have htake : (bytes ++ more).take e = bytes.take e :=
      List.take_append_of_le_length (hcuts e he.1)
    exact h.2.2 ⟨he.1, htake ▸ he.2⟩

/-- So do bytes behind the last cut that are taken away. -/
theorem take {n : Nat} (h : IsReleased bytes cuts out) (hcuts : ∀ e ∈ cuts, e ≤ n) :
    IsReleased (bytes.take n) cuts out := by
  have htake (e : Nat) (he : e ∈ cuts) : (bytes.take n).take e = bytes.take e := by
    rw [List.take_take, Nat.min_eq_left (hcuts e he)]
  refine ⟨?_, ⟨h.2.1.1, ?_⟩, fun e he => h.2.2 ⟨he.1, htake e he.1 ▸ he.2⟩⟩
  · rw [← h.take_length, ← htake _ h.2.1.1]
    exact List.take_prefix _ _
  · rw [htake _ h.2.1.1]
    exact h.2.1.2

/-- A cut at which the bytes are well-formed, and behind all others, brings everything in
front of it. -/
theorem of_wellFormed {stop : Nat} {out' : String} (hout : encode out' = bytes.take stop)
    (hstop : stop ≤ bytes.length) (hcuts : ∀ e ∈ cuts, e ≤ stop) :
    IsReleased bytes (insert stop cuts) out' := by
  have hlen : (encode out').length = stop := by rw [hout, List.length_take_of_le hstop]
  refine ⟨hout ▸ List.take_prefix stop bytes, ?_, fun e he => ?_⟩
  · rw [hlen]
    exact ⟨Set.mem_insert stop cuts, hout ▸ wellFormed_encode out'⟩
  · rw [hlen]
    rcases he.1 with rfl | he
    · exact le_rfl
    · exact hcuts e he

/-- A cut inside a character brings nothing. -/
theorem of_not_wellFormed (h : IsReleased bytes cuts out) {stop : Nat}
    (hw : ¬ WellFormed (bytes.take stop)) : IsReleased bytes (insert stop cuts) out := by
  refine ⟨h.1, ⟨Set.mem_insert_of_mem stop h.2.1.1, h.2.1.2⟩, fun e he => ?_⟩
  rcases he.1 with rfl | hmem
  · exact absurd he.2 hw
  · exact h.2.2 ⟨hmem, he.2⟩

/-- **One more cut.** -/
theorem extend (h : IsReleased bytes cuts out) {a : Accumulator} {given stop : Nat}
    (ha : a.Holds (bytes.take given) out) (hlt : given < stop) (hstop : stop ≤ bytes.length)
    (hcuts : ∀ e ∈ cuts, e ≤ stop) (hc : Completable (bytes.take stop)) :
    let pushed := a.push ((bytes.drop given).take (stop - given))
    IsReleased bytes (insert stop cuts) (out ++ pushed.1) ∧
      pushed.2.Holds (bytes.take stop) (out ++ pushed.1) := by
  intro pushed
  have hsplit : bytes.take given ++ (bytes.drop given).take (stop - given) = bytes.take stop := by
    rw [← List.take_add, Nat.add_sub_cancel' hlt.le]
  obtain ⟨hholds, hor⟩ := ha.push (hsplit ▸ hc)
  rw [hsplit] at hholds hor
  refine ⟨?_, hholds⟩
  by_cases hw : WellFormed (bytes.take stop)
  · exact of_wellFormed (hholds.encode_eq hw) hstop hcuts
  · have hnone : pushed.1 = "" := hor.resolve_left hw
    rw [hnone, String.append_empty]
    exact h.of_not_wellFormed hw

/-- The same cut once more. -/
theorem extend_self (h : IsReleased bytes cuts out) {a : Accumulator} {given : Nat}
    (ha : a.Holds (bytes.take given) out) (hle : given ≤ bytes.length)
    (hcuts : ∀ e ∈ cuts, e ≤ given) : IsReleased bytes (insert given cuts) out := by
  by_cases hw : WellFormed (bytes.take given)
  · exact of_wellFormed (ha.encode_eq hw) hle hcuts
  · exact h.of_not_wellFormed hw

/-- **Well-formed bytes with a cut at their end are released whole.** -/
theorem encode_eq (h : IsReleased bytes cuts out) (hw : WellFormed bytes)
    (hmem : bytes.length ∈ cuts) : encode out = bytes := by
  have hle : bytes.length ≤ (encode out).length :=
    h.2.2 ⟨hmem, by rwa [List.take_length]⟩
  exact h.1.eq_of_length (le_antisymm h.1.length_le hle)

/-- **In front of an unfinished character** everything is released exactly when there is a cut
right there. -/
theorem prefix_iff {w t : List UInt8} (h : IsReleased (w ++ t) cuts out) (hw : WellFormed w)
    (ht : Unfinished t) : w <+: encode out ↔ w.length ∈ cuts := by
  have hle : (encode out).length ≤ w.length :=
    hw.length_le_of_prefix ht (wellFormed_encode out) h.1
  constructor
  · intro hp
    rw [le_antisymm hp.length_le hle]
    exact h.2.1.1
  · intro hmem
    have hge : w.length ≤ (encode out).length := h.2.2 ⟨hmem, by rwa [List.take_left]⟩
    exact List.prefix_of_prefix_length_le (List.prefix_append w t) h.1 hge

/-- No byte of the unfinished character is released. -/
theorem prefix_of_unfinished {w t : List UInt8} (h : IsReleased (w ++ t) cuts out)
    (hw : WellFormed w) (ht : Unfinished t) : encode out <+: w :=
  List.prefix_of_prefix_length_le h.1 (List.prefix_append w t)
    (hw.length_le_of_prefix ht (wellFormed_encode out) h.1)

end IsReleased
end LlmSession
