import LlmSession.Proofs.Stop.Scan
import Mathlib.Data.Set.Insert

/-!
# What is held back, and what is not

The bytes at the end of a reply that may be the beginning of a marker are held back, and those
in front of them are handed on.  `safeEnd` is where the two meet.

It never moves back when the reply grows (`safeEnd_le_append`): a longer reply that has to hold
back more begins its tail inside the old one, so the old tail was as long.  For the same reason
a marker that is completed later begins at `safeEnd` or behind it (`safeEnd_le_of_append`), and
no byte of it was handed on.

The places where `safeEnd` stood are the *cuts* of a reply (`cuts`).
-/

namespace LlmSession

open Utf8

namespace StopConditions

variable {c : StopConditions}

/-! ## The tail that is held back -/

/-- A beginning of a marker, but not all of it. -/
def Opens (c : StopConditions) (part : List UInt8) : Prop :=
  ∃ m ∈ c.markers, part <+: encode m ∧ part.length < (encode m).length

theorem Opens.of_prefix {part shorter : List UInt8} (h : c.Opens part)
    (hp : shorter <+: part) : c.Opens shorter := by
  obtain ⟨m, hm, hpart, hlt⟩ := h
  exact ⟨m, hm, hp.trans hpart, Nat.lt_of_le_of_lt hp.length_le hlt⟩

theorem Opens.le_partialMarkerLength {part reply : List UInt8} (h : c.Opens part)
    (hs : part <:+ reply) : part.length ≤ c.partialMarkerLength reply := by
  obtain ⟨m, hm, hp, hlt⟩ := h
  have htake : (encode m).take part.length = part := (List.prefix_iff_eq_take.1 hp).symm
  have hle : part.length ≤ longestStart (encode m) reply.reverse ((encode m).length - 1) :=
    le_longestStart (by omega) (htake.symm ▸ hs)
  exact hle.trans (List.le_max?_getD_of_mem (List.mem_map.2 ⟨m, hm, rfl⟩))

theorem exists_opens_suffix_of_pos {reply : List UInt8}
    (h : 0 < c.partialMarkerLength reply) :
    ∃ part, c.Opens part ∧ part <:+ reply ∧ part.length = c.partialMarkerLength reply := by
  cases hmax : (c.markers.map fun m =>
      longestStart (encode m) reply.reverse ((encode m).length - 1)).max? with
  | none =>
    rw [partialMarkerLength, hmax] at h
    exact absurd h (Nat.lt_irrefl 0)
  | some n =>
    have hn : c.partialMarkerLength reply = n := by rw [partialMarkerLength, hmax]; rfl
    obtain ⟨m, hm, hmn⟩ := List.mem_map.1 (List.max?_mem hmax)
    have hle : n ≤ (encode m).length - 1 := hmn ▸ longestStart_le _ _ _
    have hlen : ((encode m).take n).length = n := List.length_take_of_le (by omega)
    rw [hn] at h ⊢
    refine ⟨(encode m).take n, ⟨m, hm, List.take_prefix n _, by omega⟩, ?_, hlen⟩
    rw [← hmn]
    exact take_longestStart_suffix _ _ _

theorem partialMarkerLength_le (c : StopConditions) (reply : List UInt8) :
    c.partialMarkerLength reply ≤ reply.length := by
  rcases Nat.eq_zero_or_pos (c.partialMarkerLength reply) with h | h
  · omega
  · obtain ⟨part, -, hsuffix, hlen⟩ := exists_opens_suffix_of_pos h
    exact hlen ▸ hsuffix.length_le

/-! ## Where it begins -/

/-- The end of what is handed on of a reply. -/
def safeEnd (c : StopConditions) (reply : List UInt8) : Nat :=
  reply.length - c.partialMarkerLength reply

theorem safeEnd_le_length (c : StopConditions) (reply : List UInt8) :
    c.safeEnd reply ≤ reply.length := Nat.sub_le _ _

/-- **What was handed on stays so** when the reply grows. -/
theorem safeEnd_le_append (c : StopConditions) (reply piece : List UInt8) :
    c.safeEnd reply ≤ c.safeEnd (reply ++ piece) := by
  have hle := c.partialMarkerLength_le (reply ++ piece)
  rw [safeEnd, safeEnd, List.length_append]
  rw [List.length_append] at hle
  rcases Nat.lt_or_ge piece.length (c.partialMarkerLength (reply ++ piece)) with hlt | hge
  · -- the new tail begins in the old reply, so the old tail reached as far
    obtain ⟨part, hopens, hsuffix, hlen⟩ :=
      exists_opens_suffix_of_pos (Nat.lt_of_le_of_lt (Nat.zero_le _) hlt)
    obtain ⟨old, rfl⟩ : piece <:+ part :=
      List.suffix_of_suffix_length_le ⟨reply, rfl⟩ hsuffix (by omega)
    obtain ⟨before, hbefore⟩ := hsuffix
    rw [← List.append_assoc] at hbefore
    have hold : old.length ≤ c.partialMarkerLength reply :=
      (hopens.of_prefix (List.prefix_append old piece)).le_partialMarkerLength
        ⟨before, List.append_cancel_right hbefore⟩
    rw [List.length_append] at hlen
    omega
  · omega

/-- **No byte of a marker was handed on** before the marker was complete. -/
theorem safeEnd_le_of_append {reply piece before after : List UInt8} {m : String}
    (hm : m ∈ c.markers) (hno : ¬ encode m <:+: reply)
    (h : reply ++ piece = before ++ encode m ++ after) : c.safeEnd reply ≤ before.length := by
  rw [safeEnd]
  by_contra hlt
  -- the marker begins in the old reply, and the old tail is a beginning of it
  have hbefore : before <+: reply ++ piece := by
    rw [h, List.append_assoc]
    exact List.prefix_append before _
  obtain ⟨part, rfl⟩ : before <+: reply :=
    List.prefix_of_prefix_length_le hbefore (List.prefix_append reply piece) (by omega)
  rw [List.append_assoc, List.append_assoc, List.append_cancel_left_eq] at h
  have hshort : part.length < (encode m).length := by
    by_contra hge
    obtain ⟨more, rfl⟩ : encode m <+: part :=
      List.prefix_of_prefix_length_le ⟨after, h.symm⟩ (List.prefix_append part piece) (by omega)
    exact hno ⟨before, more, List.append_assoc before _ _⟩
  have hprefix : part <+: encode m :=
    List.prefix_of_prefix_length_le ⟨piece, h⟩ (List.prefix_append _ after) hshort.le
  have hopens : c.Opens part := ⟨m, hm, hprefix, hshort⟩
  have hold := hopens.le_partialMarkerLength (List.suffix_append before part)
  rw [List.length_append] at hlt
  omega

/-! ## The cuts of a reply -/

/-- Where `safeEnd` stood before the first piece came and after each of them. -/
def cuts (c : StopConditions) (pieces : List (List UInt8)) : Set Nat :=
  {e | ∃ ps, ps <+: pieces ∧ c.safeEnd ps.flatten = e}

theorem cuts_nil (c : StopConditions) : c.cuts [] = {0} := by
  ext e
  constructor
  · rintro ⟨ps, hps, rfl⟩
    rw [List.prefix_nil.1 hps]
    exact Nat.le_zero.1 (c.safeEnd_le_length [])
  · rintro rfl
    exact ⟨[], List.prefix_rfl, Nat.le_zero.1 (c.safeEnd_le_length [])⟩

theorem cuts_append_singleton (c : StopConditions) (pieces : List (List UInt8))
    (piece : List UInt8) :
    c.cuts (pieces ++ [piece]) =
      insert (c.safeEnd (pieces.flatten ++ piece)) (c.cuts pieces) := by
  have hflat : (pieces ++ [piece]).flatten = pieces.flatten ++ piece := by
    rw [List.flatten_append, List.flatten_singleton]
  ext e
  constructor
  · rintro ⟨ps, hps, rfl⟩
    rcases List.prefix_concat_iff.1 hps with rfl | hps
    · exact Or.inl (by rw [hflat])
    · exact Or.inr ⟨ps, hps, rfl⟩
  · rintro (rfl | ⟨ps, hps, rfl⟩)
    · exact ⟨pieces ++ [piece], List.prefix_rfl, by rw [hflat]⟩
    · exact ⟨ps, hps.trans (List.prefix_append pieces [piece]), rfl⟩

theorem le_safeEnd_of_mem_cuts {pieces : List (List UInt8)} {e : Nat}
    (h : e ∈ c.cuts pieces) : e ≤ c.safeEnd pieces.flatten := by
  obtain ⟨ps, ⟨more, rfl⟩, rfl⟩ := h
  rw [List.flatten_append]
  exact c.safeEnd_le_append ps.flatten more.flatten

end StopConditions

/-! ## The last occurrence of a marker -/

/-- A marker that occurs has a last occurrence. -/
theorem exists_markerStart?_eq_some {reply : List UInt8} {m : String} (hm : m ≠ "")
    (h : encode m <:+: reply) :
    ∃ before after, markerStart? reply m = some before.length ∧
      reply = before ++ encode m ++ after := by
  have hne : encode m ≠ [] := fun hnil => hm (encode_eq_nil_iff.1 hnil)
  cases hk : lastOffset? (encode m) reply with
  | none => exact absurd h ((lastOffset?_eq_none_iff hne reply).1 hk)
  | some k =>
    obtain ⟨after, hafter⟩ := prefix_drop_of_lastOffset?_eq_some hk
    have hlt : k < reply.length := by
      by_contra hge
      rw [List.drop_eq_nil_of_le (by omega)] at hafter
      exact hne (List.append_eq_nil_iff.1 hafter).1
    refine ⟨reply.take k, after, ?_, ?_⟩
    · rw [markerStart?, if_neg hm, hk, List.length_take_of_le hlt.le]
    · rw [List.append_assoc, hafter, List.take_append_drop]

end LlmSession
