/-!
# Searching a list for another

Markers are looked for in the bytes of a reply, and control text in a prompt.  Both searches
are one question about lists: where does a list, the needle, stand inside another as a run of
neighbours?

## Main definitions

* `occursIn`: whether the needle stands anywhere; `occursIn_iff` says so of `<:+:`.
* `lastOffset?`: the last place where it stands; `lastOffset?_eq_none_iff` says that there is
  one exactly when the needle occurs.
* `longestStart`: how much of the beginning of the needle stands at the end of a list; it is
  the greatest such number (`le_longestStart`).
-/

namespace LlmSession

variable {α : Type} [BEq α]

/-- Whether `needle` occurs in a list as a run of neighbours. -/
def occursIn (needle : List α) : List α → Bool
  | [] => needle.isEmpty
  | a :: l => needle.isPrefixOf (a :: l) || occursIn needle l

theorem occursIn_iff [LawfulBEq α] (needle l : List α) : occursIn needle l = true ↔ needle <:+: l := by
  induction l with
  | nil => simp [occursIn]
  | cons a l ih => simp [occursIn, ih, List.infix_cons_iff]

/-- The offset of the last occurrence of `needle`, which is not empty. -/
def lastOffset? (needle : List α) : List α → Option Nat
  | [] => none
  | a :: l =>
    match lastOffset? needle l with
    | some k => some (k + 1)
    | none => if needle.isPrefixOf (a :: l) then some 0 else none

/-- Without an offset there is no occurrence, and the other way round. -/
theorem lastOffset?_eq_none_iff [LawfulBEq α] {needle : List α} (hne : needle ≠ []) (l : List α) :
    lastOffset? needle l = none ↔ ¬ needle <:+: l := by
  induction l with
  | nil => simp [lastOffset?, hne]
  | cons a l ih =>
    rw [List.infix_cons_iff, ← List.isPrefixOf_iff_prefix]
    cases h : lastOffset? needle l with
    | none => simp [lastOffset?, h, ih.1 h]
    | some k =>
      have hin : needle <:+: l := Classical.not_not.1 (mt ih.2 (by simp [h]))
      simp [lastOffset?, h, hin]

/-- At the offset that is found the needle stands. -/
theorem prefix_drop_of_lastOffset?_eq_some [LawfulBEq α] {needle l : List α} {k : Nat}
    (h : lastOffset? needle l = some k) : needle <+: l.drop k := by
  induction l generalizing k with
  | nil => simp [lastOffset?] at h
  | cons a l ih =>
    rw [lastOffset?] at h
    split at h
    · next j hj => obtain rfl := Option.some.inj h; exact ih hj
    · split at h
      · next hp => obtain rfl := Option.some.inj h; exact List.isPrefixOf_iff_prefix.1 hp
      · simp at h

/-- The greatest number up to `k` of entries at the beginning of `needle` that a list ends
with; the list is given from its end. -/
def longestStart (needle backwards : List α) : (k : Nat) → Nat
  | 0 => 0
  | k + 1 =>
    if (needle.take (k + 1)).reverse.isPrefixOf backwards then k + 1
    else longestStart needle backwards k

theorem longestStart_le (needle backwards : List α) (k : Nat) :
    longestStart needle backwards k ≤ k := by
  induction k with
  | zero => simp [longestStart]
  | succ k ih =>
    rw [longestStart]
    split
    · exact Nat.le_refl _
    · omega

/-- So much of the needle's beginning the list ends with. -/
theorem take_longestStart_suffix [LawfulBEq α] (needle l : List α) (k : Nat) :
    needle.take (longestStart needle l.reverse k) <:+ l := by
  induction k with
  | zero => simp [longestStart]
  | succ k ih =>
    rw [longestStart]
    split
    · next h => simpa using List.isPrefixOf_iff_prefix.1 h
    · exact ih

/-- No longer beginning of the needle stands at the end of the list. -/
theorem le_longestStart [LawfulBEq α] {needle l : List α} {j k : Nat} (hjk : j ≤ k)
    (h : needle.take j <:+ l) : j ≤ longestStart needle l.reverse k := by
  induction k with
  | zero => omega
  | succ k ih =>
    rw [longestStart]
    split
    · exact hjk
    · next hno =>
      rcases Nat.lt_or_eq_of_le hjk with hlt | rfl
      · exact ih (by omega)
      · exact absurd (List.isPrefixOf_iff_prefix.2 (List.reverse_prefix.2 h)) hno

end LlmSession
