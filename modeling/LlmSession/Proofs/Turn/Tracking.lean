import LlmSession.Proofs.Stop.HoldBack
import LlmSession.Proofs.Text.Release
import LlmSession.Turn

/-!
# From the pieces of a turn to its fragments

A turn holds bytes back twice: those that may begin a marker, and those of an unfinished
character.  What ties the two together is one invariant of a running turn, `Turn.Tracks`.  It
speaks of the pieces that came and of the text `out` that went, and says that no marker is in
the bytes, that the accumulator was given all bytes in front of `safeEnd`, and that it released
what an accumulator with these cuts releases.

A turn ends in one of two ways.  All that is held back is given to the accumulator, or all that
stands in front of a marker.  Either way one more cut is made at the end of what belongs to the
caller, and that is `Turn.Ended`.

## Main statements

* `Turn.Tracks.grow`: a piece that completes no marker.
* `Turn.Tracks.finish`, `Turn.Tracks.cutAt`: the two ways to end.
-/

namespace LlmSession

open Utf8

/-! ## What belongs to the caller -/

namespace StopReason

/-- What belongs to the caller of a reply that is over: all of it, or what stands in front of
the last occurrence of the marker. -/
def front (reply : List UInt8) : StopReason → List UInt8
  | .stopMarker m => reply.take ((markerStart? reply m).getD 0)
  | _ => reply

/-- The pieces after which the turn went on. -/
def settled (pieces : List (List UInt8)) : StopReason → List (List UInt8)
  | .stopMarker _ => pieces.dropLast
  | _ => pieces

/-- Whether the reason is one that a drawn token gives before its bytes are looked at. -/
def IsVerdict : StopReason → Prop
  | .stopMarker _ => False
  | .interrupted => False
  | _ => True

theorem IsVerdict.front_eq {reason : StopReason} (h : reason.IsVerdict) (reply : List UInt8) :
    reason.front reply = reply := by
  cases reason with
  | stopMarker m => exact False.elim h
  | _ => rfl

theorem IsVerdict.settled_eq {reason : StopReason} (h : reason.IsVerdict)
    (pieces : List (List UInt8)) : reason.settled pieces = pieces := by
  cases reason with
  | stopMarker m => exact False.elim h
  | _ => rfl

end StopReason

/-- The text `out` is free of markers, since the reply is, or it is what stands in front of the
marker that the reply was searched for first. -/
def StopConditions.Passes (c : StopConditions) (reply : List UInt8) (out : String) : Prop :=
  Completable reply → ¬ c.Contains reply ∧ encode out <+: reply ∨
    ∃ m start, (c.markers.find? fun m => occursIn (encode m) reply) = some m ∧
      markerStart? reply m = some start ∧ encode out = reply.take start

namespace Turn

variable {c : StopConditions} {pieces : List (List UInt8)} {out : String} {t : Turn}

/-! ## A release -/

theorem released_releaseUpTo {stop : Nat} (hle : t.released ≤ stop) :
    (t.releaseUpTo stop).2.released = stop := by
  unfold releaseUpTo
  split
  · next h => exact le_antisymm hle h
  · rfl

/-- **One more cut.** -/
theorem isReleased_releaseUpTo {cuts : Set Nat} {stop : Nat} (h : IsReleased t.text cuts out)
    (ha : t.accumulator.Holds (t.text.take t.released) out) (hle : t.released ≤ stop)
    (hstop : stop ≤ t.text.length) (hcuts : ∀ e ∈ cuts, e ≤ t.released)
    (hc : Completable (t.text.take stop)) :
    IsReleased t.text (insert stop cuts) (out ++ (t.releaseUpTo stop).1) ∧
      (t.releaseUpTo stop).2.accumulator.Holds (t.text.take stop)
        (out ++ (t.releaseUpTo stop).1) := by
  rcases Nat.eq_or_lt_of_le hle with rfl | hlt
  · rw [releaseUpTo_of_le le_rfl, String.append_empty]
    exact ⟨h.extend_self ha hstop hcuts, ha⟩
  · rw [releaseUpTo, if_neg (Nat.not_le.2 hlt)]
    exact h.extend ha hlt hstop (fun e he => (hcuts e he).trans hle) hc

/-! ## While the turn runs -/

/-- The turn has taken in the pieces, found no marker in them, and released `out`. -/
structure Tracks (c : StopConditions) (pieces : List (List UInt8)) (out : String) (t : Turn) :
    Prop where
  text_eq : t.text = pieces.flatten
  not_contains : ¬ c.Contains t.text
  released_eq : t.released = c.safeEnd t.text
  isReleased : Completable (t.text.take t.released) →
    IsReleased t.text (c.cuts pieces) out ∧ t.accumulator.Holds (t.text.take t.released) out

theorem tracks_start (c : StopConditions) (id promptTokens maxNewTokens : Nat) :
    (start id promptTokens maxNewTokens).Tracks c [] "" where
  text_eq := rfl
  not_contains := StopConditions.not_contains_nil
  released_eq := (Nat.le_zero.1 (c.safeEnd_le_length [])).symm
  isReleased _ := ⟨c.cuts_nil.symm ▸ IsReleased.nil, Accumulator.holds_empty⟩

theorem Tracks.le_released (h : t.Tracks c pieces out) {e : Nat} (he : e ∈ c.cuts pieces) :
    e ≤ t.released := by
  rw [h.released_eq, h.text_eq]
  exact StopConditions.le_safeEnd_of_mem_cuts he

theorem Tracks.released_le (h : t.Tracks c pieces out) : t.released ≤ t.text.length :=
  h.released_eq ▸ c.safeEnd_le_length t.text

/-- The count is in front of the place up to which a longer text may be handed on. -/
theorem Tracks.le_safeEnd_append (h : t.Tracks c pieces out) (piece : List UInt8) :
    t.released ≤ c.safeEnd (t.text ++ piece) :=
  h.released_eq ▸ c.safeEnd_le_append t.text piece

/-- A marker that a piece completes begins behind the count. -/
theorem Tracks.exists_markerStart? (h : t.Tracks c pieces out) {piece : List UInt8} {m : String}
    (hfind : c.findMarker? (t.text ++ piece) piece.length = some m) :
    m ∈ c.markers ∧ ∃ before after, markerStart? (t.text ++ piece) m = some before.length ∧
      t.text ++ piece = before ++ encode m ++ after ∧ t.released ≤ before.length := by
  obtain ⟨hm, hin⟩ := StopConditions.infix_of_findMarker?_eq_some hfind
  obtain ⟨before, after, hstart, heq⟩ := exists_markerStart?_eq_some (c.markers_ne m hm) hin
  refine ⟨hm, before, after, hstart, heq, ?_⟩
  rw [h.released_eq]
  exact StopConditions.safeEnd_le_of_append hm (fun hold => h.not_contains ⟨m, hm, hold⟩) heq

/-- A release in the longer text, by a turn that is otherwise the same. -/
theorem Tracks.release (h : t.Tracks c pieces out) (t' : Turn) {piece : List UInt8} {stop : Nat}
    (htext : t'.text = t.text ++ piece) (hreleased : t'.released = t.released)
    (hacc : t'.accumulator = t.accumulator) (hle : t.released ≤ stop)
    (hstop : stop ≤ t'.text.length) (hc : Completable (t'.text.take stop)) :
    IsReleased t'.text (insert stop (c.cuts pieces)) (out ++ (t'.releaseUpTo stop).1) ∧
      (t'.releaseUpTo stop).2.accumulator.Holds (t'.text.take stop)
        (out ++ (t'.releaseUpTo stop).1) := by
  have htake : t'.text.take t.released = t.text.take t.released := by
    rw [htext, List.take_append_of_le_length h.released_le]
  have hold : Completable (t.text.take t.released) := by
    refine hc.of_prefix ?_
    rw [← htake]
    exact List.take_prefix_take_left hle
  obtain ⟨hrel, hholds⟩ := h.isReleased hold
  have hrel' : IsReleased t'.text (c.cuts pieces) out := by
    rw [htext]
    exact hrel.append piece fun e he => (h.le_released he).trans h.released_le
  have hholds' : t'.accumulator.Holds (t'.text.take t'.released) out := by
    rw [hacc, hreleased, htake]
    exact hholds
  exact isReleased_releaseUpTo hrel' hholds' (hreleased ▸ hle) hstop
    (fun e he => hreleased ▸ h.le_released he) hc

/-- **A piece that completes no marker.** -/
theorem Tracks.grow (h : t.Tracks c pieces out) {piece : List UInt8}
    (hno : ¬ c.Contains (t.text ++ piece)) :
    let released := (t.append piece).releaseUpTo (c.safeEnd (t.text ++ piece))
    released.2.Tracks c (pieces ++ [piece]) (out ++ released.1) := by
  intro released
  have hle := h.le_safeEnd_append piece
  have htext : released.2.text = t.text ++ piece := text_releaseUpTo _ _
  have hrel : released.2.released = c.safeEnd (t.text ++ piece) := released_releaseUpTo hle
  refine ⟨?_, htext ▸ hno, by rw [htext, hrel], fun hc => ?_⟩
  · rw [htext, h.text_eq, List.flatten_append, List.flatten_singleton]
  · rw [htext, hrel] at hc ⊢
    rw [c.cuts_append_singleton, ← h.text_eq]
    exact h.release (t.append piece) rfl rfl rfl hle (c.safeEnd_le_length _) hc

/-! ## When the turn is over -/

/-- The turn was over for the given reason when it had taken in the pieces, and released `out`:
what belongs to the caller, with one more cut at its end. -/
structure Ended (c : StopConditions) (pieces : List (List UInt8)) (out : String)
    (reason : StopReason) : Prop where
  occurs : ∀ m, reason = .stopMarker m → ∃ start, markerStart? pieces.flatten m = some start
  isReleased : Completable (reason.front pieces.flatten) →
    IsReleased (reason.front pieces.flatten)
      (insert (reason.front pieces.flatten).length (c.cuts (reason.settled pieces))) out

/-- What belongs to the caller reaches it whole if it is well-formed. -/
theorem Ended.encode_eq {reason : StopReason} (h : Ended c pieces out reason)
    (hw : WellFormed (reason.front pieces.flatten)) : encode out = reason.front pieces.flatten :=
  (h.isReleased hw.completable).encode_eq hw (Set.mem_insert _ _)

/-- What stands in front of an unfinished character reaches the caller exactly when there was a
cut right behind it.  The end of the turn comes too late for that. -/
theorem Ended.prefix_iff {reason : StopReason} {w t : List UInt8}
    (h : Ended c pieces out reason) (hfront : reason.front pieces.flatten = w ++ t)
    (hw : WellFormed w) (ht : Unfinished t) :
    encode out <+: w ∧ (w <+: encode out ↔ w.length ∈ c.cuts (reason.settled pieces)) := by
  have hrel := h.isReleased
  rw [hfront] at hrel
  have hrel := hrel (hw.append_unfinished ht)
  refine ⟨hrel.prefix_of_unfinished hw ht, (hrel.prefix_iff hw ht).trans ?_⟩
  rw [Set.mem_insert_iff, or_iff_right]
  intro hlen
  rw [List.length_append] at hlen
  exact ht.1 (List.eq_nil_of_length_eq_zero (by omega))

/-- **The turn gives all that it held back.** -/
theorem Tracks.finish (h : t.Tracks c pieces out) {reason : StopReason}
    (hreason : reason.IsVerdict) :
    Ended c pieces (out ++ (t.finish reason).1) reason ∧
      c.Passes pieces.flatten (out ++ (t.finish reason).1) := by
  have hended : Ended c pieces (out ++ (t.finish reason).1) reason := by
    refine ⟨fun m hm => ?_, fun hc => ?_⟩
    · rw [hm] at hreason
      exact False.elim hreason
    · rw [hreason.front_eq, ← h.text_eq] at hc ⊢
      rw [hreason.settled_eq]
      rw [← List.take_length (l := t.text)] at hc
      exact (h.release { t with finished := some reason } (List.append_nil _).symm rfl rfl
        h.released_le le_rfl hc).1
  refine ⟨hended, fun hc => Or.inl ⟨h.text_eq ▸ h.not_contains, ?_⟩⟩
  have hrel := hended.isReleased
  rw [hreason.front_eq] at hrel
  exact (hrel hc).1

theorem fst_cutAt {m : String} {start : Nat} (h : markerStart? t.text m = some start) :
    (t.cutAt m).1 = ({ t with finished := some (.stopMarker m) }.releaseUpTo start).1 := by
  simp only [cutAt, h, Option.getD_some]

/-- **The turn stops at a marker** that its last piece completed. -/
theorem Tracks.cutAt (h : t.Tracks c pieces out) {piece : List UInt8} {m : String}
    (hfind : c.findMarker? (t.text ++ piece) piece.length = some m) :
    let cut := (t.append piece).cutAt m
    Ended c (pieces ++ [piece]) (out ++ cut.1) (.stopMarker m) ∧
      c.Passes (pieces ++ [piece]).flatten (out ++ cut.1) := by
  intro cut
  have hflat : (pieces ++ [piece]).flatten = t.text ++ piece := by
    rw [h.text_eq, List.flatten_append, List.flatten_singleton]
  obtain ⟨hm, before, after, hstart, heq, hle⟩ := h.exists_markerStart? hfind
  have hne : m ≠ "" := c.markers_ne m hm
  have htake : (t.text ++ piece).take before.length = before := by
    rw [heq, List.append_assoc, List.take_left]
  have hlen : before.length ≤ (t.text ++ piece).length := by
    rw [heq, List.length_append, List.length_append]
    omega
  have hcut : cut.1 = ({ t.append piece with finished := some (.stopMarker m) }.releaseUpTo
      before.length).1 := fst_cutAt hstart
  -- the release goes up to the marker, and no cut lies behind that
  have hrel (hc : Completable before) :
      IsReleased before (insert before.length (c.cuts pieces)) (out ++ cut.1) := by
    have hlong := (h.release { t.append piece with finished := some (.stopMarker m) } rfl rfl rfl
      hle hlen (by rwa [append, htake])).1
    rw [← hcut] at hlong
    have hshort := hlong.take (n := before.length) fun e he => by
      rcases he with rfl | he
      · exact le_rfl
      · exact (h.le_released he).trans hle
    rwa [append, htake] at hshort
  have hfront : (StopReason.stopMarker m).front (t.text ++ piece) = before := by
    rw [StopReason.front, hstart, Option.getD_some, htake]
  rw [hflat]
  refine ⟨⟨?_, ?_⟩, fun hc => Or.inr ⟨m, before.length, ?_, hstart, ?_⟩⟩
  · intro m' hm'
    cases hm'
    exact ⟨before.length, hflat.symm ▸ hstart⟩
  · rw [hflat, hfront, StopReason.settled, List.dropLast_concat]
    exact hrel
  · rw [← StopConditions.findMarker?_append h.not_contains, hfind]
  · -- the marker is a text, so it begins between two characters
    obtain ⟨rest, hw⟩ := hc
    rw [heq, List.append_assoc] at hw
    have hbefore : WellFormed before := hw.of_append_encode hne
    rw [htake]
    exact (hrel hbefore.completable).encode_eq hbefore (Set.mem_insert _ _)

end Turn
end LlmSession
