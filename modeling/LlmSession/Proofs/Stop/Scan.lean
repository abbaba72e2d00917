import LlmSession.Proofs.Text.WellFormed
import LlmSession.Stop
import Mathlib.Data.List.Find
import Mathlib.Data.Nat.Find
import Mathlib.Order.Bounds.Basic

/-!
# The window sees what the whole reply holds

`StopConditions.findMarker?` looks at a window at the end of the reply.  This file compares it
with a search through all of the reply.

## Why the window is enough

If the reply held no marker before its last piece came, an occurrence in the longer reply ends
inside that piece (`exists_of_infix_append`).  It is no longer than the longest marker, so it
lies in the window.  Hence the scan gives the first marker, in the configured order, that
occurs anywhere (`findMarker?_append`), and over a whole sequence of pieces it answers first
where a marker occurs first (`isLeast_scanAt_iff`), however the bytes were cut.
-/

namespace LlmSession

open Utf8

/-- An occurrence that is not wholly in the old part ends in the new one. -/
theorem exists_of_infix_append {needle old piece : List UInt8} (h : needle <:+: old ++ piece)
    (hno : ¬ needle <:+: old) :
    ∃ before after, old ++ piece = before ++ needle ++ after ∧ after.length < piece.length := by
  obtain ⟨before, after, heq⟩ := h
  refine ⟨before, after, heq.symm, ?_⟩
  by_contra hle
  -- otherwise the occurrence ends in the old part
  obtain ⟨more, rfl⟩ : piece <:+ after :=
    List.suffix_of_suffix_length_le ⟨old, rfl⟩ ⟨before ++ needle, heq⟩ (by omega)
  rw [← List.append_assoc] at heq
  exact hno ⟨before, more, List.append_cancel_right heq⟩

namespace StopConditions

variable {c : StopConditions}

/-- Some marker occurs in the reply. -/
def Contains (c : StopConditions) (reply : List UInt8) : Prop :=
  ∃ m ∈ c.markers, encode m <:+: reply

instance (c : StopConditions) (reply : List UInt8) : Decidable (c.Contains reply) :=
  inferInstanceAs (Decidable (∃ m ∈ c.markers, encode m <:+: reply))

theorem Contains.mono {part reply : List UInt8} (h : c.Contains part) (hp : part <:+: reply) :
    c.Contains reply := by
  obtain ⟨m, hm, hin⟩ := h
  exact ⟨m, hm, hin.trans hp⟩

theorem encode_ne_nil {m : String} (hm : m ∈ c.markers) : encode m ≠ [] := by
  intro h
  exact c.markers_ne m hm (encode_eq_nil_iff.1 h)

theorem not_contains_nil : ¬ c.Contains [] := by
  rintro ⟨m, hm, hin⟩
  exact encode_ne_nil hm (List.infix_nil.1 hin)

theorem length_encode_le_longestMarker {m : String} (hm : m ∈ c.markers) :
    (encode m).length ≤ c.longestMarker :=
  List.le_max?_getD_of_mem (List.mem_map.2 ⟨m, hm, rfl⟩)

/-! ## The window and the whole reply -/

/-- **The window holds what the last piece has completed.** -/
theorem infix_window_append_iff {m : String} {reply piece : List UInt8} (hm : m ∈ c.markers)
    (hno : ¬ encode m <:+: reply) :
    encode m <:+: c.window (reply ++ piece) piece.length ↔ encode m <:+: reply ++ piece := by
  constructor
  · intro h
    exact h.trans (List.drop_suffix _ _).isInfix
  · intro h
    obtain ⟨before, after, heq, hlt⟩ := exists_of_infix_append h hno
    have hlong := length_encode_le_longestMarker hm
    have hlen : (reply ++ piece).length = before.length + (encode m).length + after.length := by
      rw [heq, List.length_append, List.length_append]
    have hk : (reply ++ piece).length - (piece.length + (c.longestMarker - 1)) ≤
        before.length := by omega
    refine ⟨before.drop ((reply ++ piece).length - (piece.length + (c.longestMarker - 1))),
      after, ?_⟩
    rw [window, heq, List.append_assoc, List.append_assoc,
      List.drop_append_of_le_length (by rwa [heq, List.append_assoc] at hk)]

/-- **The scan is a search through the whole reply**, as long as no marker was there before
the last piece. -/
theorem findMarker?_append {reply : List UInt8} (hno : ¬ c.Contains reply)
    (piece : List UInt8) :
    c.findMarker? (reply ++ piece) piece.length =
      c.markers.find? fun m => occursIn (encode m) (reply ++ piece) := by
  rw [findMarker?]
  split
  · next h =>
    symm
    rw [List.find?_eq_none]
    intro m hm hin
    rcases h with h | h
    · -- without bytes there is no marker
      have hlong := length_encode_le_longestMarker hm
      exact encode_ne_nil hm (List.eq_nil_of_length_eq_zero (by omega))
    · rw [List.eq_nil_of_length_eq_zero h, List.append_nil, occursIn_iff] at hin
      exact hno ⟨m, hm, hin⟩
  · refine List.find?_congr fun m hm => ?_
    rw [Bool.eq_iff_iff, occursIn_iff, occursIn_iff]
    exact infix_window_append_iff hm fun hin => hno ⟨m, hm, hin⟩

/-- A marker that is found is one of the configured ones, and occurs. -/
theorem infix_of_findMarker?_eq_some {reply : List UInt8} {appended : Nat} {m : String}
    (h : c.findMarker? reply appended = some m) : m ∈ c.markers ∧ encode m <:+: reply := by
  rw [findMarker?] at h
  split at h
  · exact nomatch h
  · refine ⟨List.mem_of_find?_eq_some h, ?_⟩
    have hin := List.find?_some h
    rw [occursIn_iff] at hin
    exact hin.trans (List.drop_suffix _ _).isInfix

theorem findMarker?_append_eq_none_iff {reply : List UInt8} (hno : ¬ c.Contains reply)
    (piece : List UInt8) :
    c.findMarker? (reply ++ piece) piece.length = none ↔ ¬ c.Contains (reply ++ piece) := by
  rw [findMarker?_append hno, List.find?_eq_none]
  constructor
  · rintro h ⟨m, hm, hin⟩
    exact h m hm ((occursIn_iff _ _).2 hin)
  · intro h m hm hin
    exact h ⟨m, hm, (occursIn_iff _ _).1 hin⟩

/-! ## Reply by pieces -/

/-- The reply when piece `k` has come. -/
def replyAt (pieces : List (List UInt8)) (k : Nat) : List UInt8 := (pieces.take (k + 1)).flatten

/-- What the scan answers when piece `k` has come. -/
def scanAt (c : StopConditions) (pieces : List (List UInt8)) (k : Nat) : Option String :=
  pieces[k]?.bind fun piece => c.findMarker? (replyAt pieces k) piece.length

theorem replyAt_zero {pieces : List (List UInt8)} {piece : List UInt8}
    (h : pieces[0]? = some piece) : replyAt pieces 0 = [] ++ piece := by
  obtain ⟨rest, rfl⟩ : ∃ rest, pieces = piece :: rest := by
    cases pieces with
    | nil => exact nomatch h
    | cons p rest => exact ⟨rest, by simpa using h⟩
  simp [replyAt]

theorem replyAt_succ {pieces : List (List UInt8)} {piece : List UInt8} {k : Nat}
    (h : pieces[k + 1]? = some piece) :
    replyAt pieces (k + 1) = replyAt pieces k ++ piece := by
  rw [replyAt, List.take_add_one, h, Option.toList_some, List.flatten_append,
    List.flatten_singleton, replyAt]

/-- The reply when a piece has come is an earlier reply and that piece.  If no earlier reply
holds a marker, neither does that one. -/
theorem exists_replyAt_eq_append {pieces : List (List UInt8)} {piece : List UInt8} {k : Nat}
    (h : pieces[k]? = some piece) (hno : ∀ j < k, ¬ c.Contains (replyAt pieces j)) :
    ∃ old, replyAt pieces k = old ++ piece ∧ ¬ c.Contains old := by
  cases k with
  | zero => exact ⟨[], replyAt_zero h, not_contains_nil⟩
  | succ k => exact ⟨replyAt pieces k, replyAt_succ h, hno k (Nat.lt_succ_self k)⟩

theorem contains_of_scanAt {pieces : List (List UInt8)} {k : Nat} {m : String}
    (h : c.scanAt pieces k = some m) : k < pieces.length ∧ c.Contains (replyAt pieces k) := by
  obtain ⟨piece, hk, hfind⟩ := Option.bind_eq_some_iff.1 h
  obtain ⟨hm, hin⟩ := infix_of_findMarker?_eq_some hfind
  exact ⟨(List.getElem?_eq_some_iff.1 hk).1, m, hm, hin⟩

/-- Where a marker occurs and none did before, the scan answers. -/
theorem exists_scanAt_of_contains {pieces : List (List UInt8)} {k : Nat}
    (hk : k < pieces.length) (h : c.Contains (replyAt pieces k))
    (hno : ∀ j < k, ¬ c.Contains (replyAt pieces j)) : ∃ m, c.scanAt pieces k = some m := by
  have hpiece : pieces[k]? = some pieces[k] := List.getElem?_eq_getElem hk
  obtain ⟨old, hold, hnone⟩ := exists_replyAt_eq_append hpiece hno
  rw [← Option.ne_none_iff_exists', scanAt, hpiece, Option.bind_some, hold]
  rw [hold] at h
  exact fun hfind => (findMarker?_append_eq_none_iff hnone _).1 hfind h

/-- **The scan answers first where a marker occurs first.** -/
theorem isLeast_scanAt_iff (c : StopConditions) (pieces : List (List UInt8)) (k : Nat) :
    IsLeast {k | ∃ m, c.scanAt pieces k = some m} k ↔
      IsLeast {k | k < pieces.length ∧ c.Contains (replyAt pieces k)} k := by
  have hsub : ∀ j, (∃ m, c.scanAt pieces j = some m) →
      j < pieces.length ∧ c.Contains (replyAt pieces j) :=
    fun j ⟨m, hm⟩ => contains_of_scanAt hm
  constructor
  · rintro ⟨hmem, hleast⟩
    have hk := hsub k hmem
    refine ⟨hk, fun j hj => ?_⟩
    -- an earlier occurrence would have a first one, which the scan finds
    induction j using Nat.strong_induction_on with
    | _ j ih =>
      by_cases hearlier : ∃ i < j, c.Contains (replyAt pieces i)
      · obtain ⟨i, hij, hi⟩ := hearlier
        exact (ih i hij ⟨hij.trans hj.1, hi⟩).trans hij.le
      · exact hleast (exists_scanAt_of_contains hj.1 hj.2 fun i hij hi => hearlier ⟨i, hij, hi⟩)
  · rintro ⟨⟨hk, hin⟩, hleast⟩
    refine ⟨exists_scanAt_of_contains hk hin fun j hj hjin => ?_, fun j hj => hleast (hsub j hj)⟩
    exact absurd (hleast ⟨hj.trans hk, hjin⟩) (Nat.not_le.2 hj)

/-- **What the scan answers first** occurs in the reply, and ends in the last piece. -/
theorem exists_of_isLeast_scanAt {pieces : List (List UInt8)} {piece : List UInt8} {k : Nat}
    {m : String} (hleast : IsLeast {k | ∃ m, c.scanAt pieces k = some m} k)
    (hpiece : pieces[k]? = some piece) (h : c.scanAt pieces k = some m) :
    m ∈ c.markers ∧ ∃ before after, replyAt pieces k = before ++ encode m ++ after ∧
      after.length < piece.length := by
  have hno : ∀ j < k, ¬ c.Contains (replyAt pieces j) := by
    intro j hj hin
    have hle := ((c.isLeast_scanAt_iff pieces k).1 hleast).2
      ⟨hj.trans (contains_of_scanAt h).1, hin⟩
    exact absurd hle (Nat.not_le.2 hj)
  obtain ⟨old, hold, hnone⟩ := exists_replyAt_eq_append hpiece hno
  rw [scanAt, hpiece, Option.bind_some] at h
  obtain ⟨hm, hin⟩ := infix_of_findMarker?_eq_some h
  rw [hold] at hin ⊢
  exact ⟨hm, exists_of_infix_append hin fun hcontra => hnone ⟨m, hm, hcontra⟩⟩

/-- **No cut of the bytes hides a marker**: the scan answers at some piece exactly when the
whole holds one. -/
theorem exists_scanAt_iff (c : StopConditions) (pieces : List (List UInt8)) :
    (∃ k m, c.scanAt pieces k = some m) ↔ c.Contains pieces.flatten := by
  constructor
  · rintro ⟨k, m, h⟩
    refine (contains_of_scanAt h).2.mono ⟨[], (pieces.drop (k + 1)).flatten, ?_⟩
    rw [List.nil_append, replyAt, ← List.flatten_append, List.take_append_drop]
  · intro h
    have hex : ∃ k, k < pieces.length ∧ c.Contains (replyAt pieces k) := by
      have hpos : 0 < pieces.length := by
        rw [List.length_pos_iff]
        rintro rfl
        exact not_contains_nil h
      refine ⟨pieces.length - 1, by omega, ?_⟩
      rwa [replyAt, Nat.sub_add_cancel hpos, List.take_length]
    obtain ⟨k, hk⟩ : ∃ k, IsLeast {k | k < pieces.length ∧ c.Contains (replyAt pieces k)} k := by
      classical exact ⟨Nat.find hex, Nat.find_spec hex, fun j hj => Nat.find_min' hex hj⟩
    exact ⟨k, ((c.isLeast_scanAt_iff pieces k).2 hk).1⟩

end StopConditions
end LlmSession
