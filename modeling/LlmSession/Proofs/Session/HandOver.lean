import LlmSession.Proofs.Session.Finality
import LlmSession.Proofs.Text.Pieces

/-!
# What a turn hands to its accumulator

A turn counts the bytes that it has handed on, and hands on what lies between this count and the
place that it may go up to.  If that place ever fell behind the count, the turn would hand on
nothing and keep the count, and nobody would notice.  If a marker were found that begins in front of
the count, its first bytes would have been handed on already, and the turn would be cut there as if
no place for the marker were known.  Neither happens.

## Why it does not

What is held back is the longest end of the reply that may still become a marker, and it may well
begin earlier than the end that was held back a step before, in which another marker may have begun.
But it never begins in front of the count, and neither does a marker that is completed later: the
part of it that was there at the step before was itself an end that may still become a marker, and
so no longer than what was held back.  This is `StopConditions.safeEnd_le_append` and
`StopConditions.safeEnd_le_of_append`, and here it is carried through all that can happen to a turn.

## What can happen to a turn

`Turn.Goes` lists it, with the text that is given meanwhile, and `Session.Performs.goes` says that
an operation that leaves a turn and begins none has done one of these things to it.  The invariant
is `Turn.HandedOver`: the accumulator of a running turn got the bytes in front of the count, in
parts and in their order, and what it released for them is what the caller got.

## Main statements

* `Session.Performs.goes`: what an operation does to a turn.
* `Turn.Goes.released_le`, `Turn.Goes.handedOver`, `Turn.Goes.exists_markerStart?`: the count never
  falls, the bytes in front of it were handed over, and a marker begins behind it.
* `Session.hold_back_is_exact`: all of this, along every run.
-/

namespace LlmSession

open Utf8

/-- **What is held back** is the greatest length of an end that is a proper beginning of some
marker, or zero. -/
theorem StopConditions.isGreatest_partialMarkerLength (c : StopConditions) (reply : List UInt8) :
    IsGreatest {k | k = 0 ∨ ∃ part, c.Opens part ∧ part <:+ reply ∧ part.length = k}
      (c.partialMarkerLength reply) := by
  constructor
  · rcases Nat.eq_zero_or_pos (c.partialMarkerLength reply) with hzero | hpos
    · exact Or.inl hzero
    · exact Or.inr (exists_opens_suffix_of_pos hpos)
  · rintro k (rfl | ⟨part, hopens, hsuffix, rfl⟩)
    · exact Nat.zero_le _
    · exact hopens.le_partialMarkerLength hsuffix

/-! ## What can happen to a turn -/

namespace Turn

/-- What becomes of a turn, and the text that is given meanwhile. -/
inductive Goes (c : StopConditions) (t : Turn) : String → Turn → Prop where
  /-- Nothing happens. -/
  | kept : Goes c t "" t
  /-- The cache is emptied under the turn. -/
  | interrupted : Goes c t "" t.interrupt
  /-- The token that was drawn ends the turn. -/
  | finished {reason : StopReason} (hf : t.finished = none) (hreason : reason.IsVerdict) :
    Goes c t (t.finish reason).1 (t.finish reason).2
  /-- The piece completes a marker. -/
  | cut {piece : List UInt8} {m : String} (hf : t.finished = none)
    (hm : c.findMarker? (t.text ++ piece) piece.length = some m) :
    Goes c t ((t.append piece).cutAt m).1 ((t.append piece).cutAt m).2
  /-- The piece is taken in, and the turn goes on. -/
  | grown {piece : List UInt8} (hf : t.finished = none)
    (hm : c.findMarker? (t.text ++ piece) piece.length = none) (cursor : Nat) :
    Goes c t ((t.append piece).releaseUpTo (c.safeEnd (t.text ++ piece))).1
      { ((t.append piece).releaseUpTo (c.safeEnd (t.text ++ piece))).2 with cursor }

/-- The accumulator was handed the bytes in front of the count, in parts, and released `out` for
them. -/
def HandedOver (t : Turn) (out : String) : Prop :=
  ∃ parts, parts.flatten = t.text.take t.released ∧
    Accumulator.empty.after parts = t.accumulator ∧ Accumulator.empty.released parts = out

section

variable {c : StopConditions} {pieces : List (List UInt8)} {out text : String} {t t' : Turn}

theorem handedOver_start (id promptTokens maxNewTokens : Nat) :
    (start id promptTokens maxNewTokens).HandedOver "" := ⟨[], rfl, rfl, rfl⟩

/-- One more part, which is what lies between the count and `stop`. -/
theorem HandedOver.releaseUpTo (h : t.HandedOver out) {stop : Nat} (hle : t.released ≤ stop) :
    (t.releaseUpTo stop).2.HandedOver (out ++ (t.releaseUpTo stop).1) := by
  rcases Nat.eq_or_lt_of_le hle with rfl | hlt
  · rw [releaseUpTo_of_le le_rfl, String.append_empty]
    exact h
  obtain ⟨parts, hparts, hacc, hout⟩ := h
  rw [Turn.releaseUpTo, if_neg (Nat.not_le.2 hlt)]
  refine ⟨parts ++ [(t.text.drop t.released).take (stop - t.released)], ?_, ?_, ?_⟩
  · rw [List.flatten_append, hparts, List.flatten_singleton, ← List.take_add,
      Nat.add_sub_cancel' hle]
  · rw [Accumulator.after_append, hacc]
    rfl
  · rw [Accumulator.released_append, hacc, hout, Accumulator.released, Accumulator.released,
      String.append_empty]

theorem HandedOver.append (h : t.HandedOver out) (hle : t.released ≤ t.text.length)
    (piece : List UInt8) : (t.append piece).HandedOver out := by
  obtain ⟨parts, hparts, hacc, hout⟩ := h
  refine ⟨parts, hparts.trans ?_, hacc, hout⟩
  exact (List.take_append_of_le_length hle).symm

theorem released_interrupt (t : Turn) : t.interrupt.released = t.released := by
  unfold interrupt
  split <;> rfl

/-- **The count never falls.** -/
theorem Goes.released_le (h : t.Goes c text t')
    (htracks : t.finished = none → t.Tracks c pieces out) : t.released ≤ t'.released := by
  cases h with
  | kept => exact le_rfl
  | interrupted => exact (released_interrupt t).ge
  | @finished reason hf _ =>
    have hle := (htracks hf).released_le
    have hreleased : (t.finish reason).2.released = t.text.length :=
      released_releaseUpTo (t := { t with finished := some reason }) hle
    exact hreleased ▸ hle
  | @cut piece m hf _ =>
    show t.released ≤ (t.text ++ piece).length
    rw [List.length_append]
    exact (htracks hf).released_le.trans (Nat.le_add_right _ _)
  | @grown piece hf _ cursor =>
    have hle := (htracks hf).le_safeEnd_append piece
    exact hle.trans (released_releaseUpTo (t := t.append piece) hle).ge

/-- **The bytes in front of the count were handed over**, as long as the turn goes on. -/
theorem Goes.handedOver (h : t.Goes c text t') (htracks : t.finished = none → t.Tracks c pieces out)
    (hover : t.finished = none → t.HandedOver out) (hf' : t'.finished = none) :
    t'.HandedOver (out ++ text) := by
  cases h with
  | kept =>
    rw [String.append_empty]
    exact hover hf'
  | interrupted => exact absurd hf' (finished_interrupt_ne_none t)
  | finished _ _ =>
    rw [finished_finish] at hf'
    exact nomatch hf'
  | cut _ _ =>
    rw [finished_cutAt] at hf'
    exact nomatch hf'
  | @grown piece hf _ cursor =>
    exact ((hover hf).append (htracks hf).released_le piece).releaseUpTo
      ((htracks hf).le_safeEnd_append piece)

/-- **A marker that is found begins behind the count**, and what stands in front of it is what was
handed over in the end. -/
theorem Goes.exists_markerStart? {m : String} (h : t.Goes c text t')
    (htracks : t.Tracks c pieces out) (hover : t.HandedOver out) (hf : t.finished = none)
    (hf' : t'.finished = some (.stopMarker m)) :
    m ∈ c.markers ∧ ∃ start, markerStart? t'.text m = some start ∧ t.released ≤ start ∧
      ∃ parts, parts.flatten = t'.text.take start ∧
        Accumulator.empty.released parts = out ++ text := by
  cases h with
  | kept =>
    rw [hf] at hf'
    exact nomatch hf'
  | interrupted =>
    rw [finished_interrupt_of_running hf] at hf'
    exact nomatch hf'
  | finished _ hreason =>
    rw [finished_finish] at hf'
    rw [Option.some.inj hf'] at hreason
    exact hreason.elim
  | @grown piece _ _ _ =>
    have hgoes := (finished_releaseUpTo (t.append piece) (c.safeEnd (t.text ++ piece))).trans hf
    exact nomatch hgoes.symm.trans hf'
  | @cut piece found _ hfind =>
    rw [finished_cutAt] at hf'
    cases hf'
    obtain ⟨hm, before, after, hstart, -, hle⟩ := htracks.exists_markerStart? hfind
    have htext : ((t.append piece).cutAt m).2.text = t.text ++ piece := text_releaseUpTo _ _
    -- the last release of the turn goes up to the marker
    let cut : Turn := { t.append piece with finished := some (.stopMarker m) }
    have hcut : cut.HandedOver out := hover.append htracks.released_le piece
    have hbehind : cut.released ≤ before.length := hle
    obtain ⟨parts, hparts, -, hout⟩ := hcut.releaseUpTo hbehind
    rw [text_releaseUpTo, released_releaseUpTo hbehind] at hparts
    exact ⟨hm, before.length, htext ▸ hstart, hle, parts, htext ▸ hparts,
      hout.trans (congrArg (out ++ ·) (fst_cutAt hstart).symm)⟩

end

end Turn

/-! ## What an operation does to a turn -/

/-- **A step** that leaves a turn has done something to it that can happen to a turn. -/
theorem Loaded.Steps.goes {E : Engine} {l l' : Loaded E} {limit : LengthLimit} {t t' : Turn}
    {w w' : E.World} {outcome : Except SessionError Step}
    (hs : l.Steps limit t w (outcome, l', w')) (hf : t.finished = none) (ht' : l'.turn = some t') :
    t.Goes l.stop (textOf (outcome.map .stepped)) t' := by
  cases hs with
  | verdict hv =>
    cases ht'
    rw [textOf_closing]
    exact .finished hf (isVerdict_of_verdict_eq_some hv)
  | noBytes hv hd => exact nomatch ht'
  | marker hv hd hm =>
    cases ht'
    rw [textOf_closing]
    exact .cut hf hm
  | taken hv hd hm hp =>
    cases ht'
    exact .grown hf hm _
  | lost hv hd hm hp => exact nomatch ht'

namespace Session

variable {E : Engine} {s : Session E} {op : Operation} {c : StopConditions}
  {pieces : List (List UInt8)} {out : String} {result : Except SessionError Answer × Session E}

/-- **An operation** that leaves a turn and begins none. -/
theorem Performs.goes (hp : s.Performs op result) (hop : ¬ op.BeginsTurn) {t' : Turn}
    (ht' : result.2.turn? = some t') :
    ∃ l t, s.phase = .loaded l ∧ l.turn = some t ∧ t.Goes l.stop (textOf result.1) t' := by
  have hkept (h : s.turn? = some t') :
      ∃ l t, s.phase = .loaded l ∧ l.turn = some t ∧ t.Goes l.stop "" t' := by
    obtain ⟨l, -, hl, ht⟩ := exists_loaded_of_turn? h
    exact ⟨l, t', hl, ht, .kept⟩
  have hinterrupted {l : Loaded E} (hl : s.phase = .loaded l)
      (h : l.turn.map Turn.interrupt = some t') :
      ∃ l t, s.phase = .loaded l ∧ l.turn = some t ∧ t.Goes l.stop "" t' := by
    obtain ⟨t, ht, rfl⟩ := Option.map_eq_some_iff.1 h
    exact ⟨l, t, hl, ht, .interrupted⟩
  induction hp with
  | notIdle _ => exact hkept ht'
  | notLoaded _ _ => exact hkept ht'
  | noTurn _ _ => exact hkept ht'
  | replaced _ _ => exact hkept ht'
  | loadFailed _ _ => exact hkept ht'
  | finished _ _ _ => exact hkept ht'
  | loaded _ ha =>
    cases ha
    exact nomatch ht'
  | faulted _ _ => exact nomatch ht'
  | reloaded _ _ => exact nomatch ht'
  | notBegun _ _ => exact absurd trivial hop
  | begun _ _ => exact absurd trivial hop
  | stepped hl ht hf hstep =>
    exact ⟨_, _, hl, ht, hstep.goes hf ((turn?_of_loaded rfl).symm.trans ht')⟩
  | stepFor _ _ ih => exact ih id ht'
  | cleared hl _ => exact hinterrupted hl ((turn?_of_loaded rfl).symm.trans ht')
  | @measured l shape outcome batch context w hl _ =>
    have hnone : textOf (outcome.map .measured) = "" := by cases outcome <;> rfl
    rw [hnone]
    exact hinterrupted hl ((turn?_of_loaded rfl).symm.trans ht')
  | unloaded => exact nomatch ht'

theorem join_fragments_append_singleton (s : Session E) (ops : List Operation) (op : Operation) :
    String.join (s.fragments (ops ++ [op])) =
      String.join (s.fragments ops) ++ textOf ((s.after ops).perform op).1 := by
  induction ops generalizing s with
  | nil =>
    rw [List.nil_append, join_fragments_cons, fragments_nil, fragments_nil, String.join_nil,
      String.append_empty, String.empty_append]
    rfl
  | cons op' ops ih =>
    rw [List.cons_append, join_fragments_cons, ih, join_fragments_cons, String.append_assoc]
    rfl

/-- The accumulator of the turn, if it runs, was handed the bytes in front of its count. -/
def HandsOver (out : String) (s : Session E) : Prop :=
  ∀ t, s.turn? = some t → t.finished = none → t.HandedOver out

/-- **One operation** that begins no turn. -/
theorem HandsOver.perform (h : s.HandsOver out) (hfollows : s.Follows c pieces out)
    (hop : ¬ op.BeginsTurn) : (s.perform op).2.HandsOver (out ++ textOf (s.perform op).1) := by
  intro t' ht' hf'
  obtain ⟨l, t, hl, ht, hgoes⟩ := (s.performs op).goes hop ht'
  have htracks (hf : t.finished = none) : t.Tracks l.stop pieces out := by
    obtain ⟨rfl, htracks⟩ := hfollows.running l.stop t ⟨l, hl, rfl, ht⟩ hf
    exact htracks
  exact hgoes.handedOver htracks (h t ((turn?_of_loaded hl).trans ht)) hf'

/-- **A run** that begins no turn. -/
theorem HandsOver.after {ops : List Operation} (h : s.HandsOver out)
    (hfollows : s.Follows c pieces out) (hops : ∀ op ∈ ops, ¬ op.BeginsTurn) :
    (s.after ops).HandsOver (out ++ String.join (s.fragments ops)) := by
  induction ops generalizing s pieces out with
  | nil =>
    rw [fragments_nil, String.join_nil, String.append_empty]
    exact h
  | cons op ops ih =>
    obtain ⟨hop, hrest⟩ := List.forall_mem_cons.1 hops
    have hnext := ih (h.perform hfollows hop) (hfollows.perform hop) hrest
    rwa [String.append_assoc, ← join_fragments_cons] at hnext

/-- A run of a turn that has begun. -/
theorem handsOver_after_of_prefill {s₀ : Session E} {prompt : String} {parseControl : Bool}
    {maxNewTokens : Nat} {report : PrefillReport} {ops : List Operation}
    (hs : s₀.prefill prompt parseControl maxNewTokens = (.ok report, s))
    (hops : ∀ op ∈ ops, ¬ op.BeginsTurn) :
    (s.after ops).HandsOver (String.join (s.fragments ops)) := by
  have hbegun : s.HandsOver "" := by
    obtain ⟨l, hl, hturn⟩ := exists_turn_of_prefill hs
    intro t ht _
    rw [turn?_of_loaded hl, hturn] at ht
    cases ht
    exact Turn.handedOver_start _ _ _
  obtain ⟨l, -, hfollows⟩ := follows_of_prefill hs
  have hover := hbegun.after hfollows hops
  rwa [String.empty_append] at hover

/-- **The hold-back is exact.**  After any run that begins no other turn, a turn that goes on has
handed on all of its text but the longest end of it that is a proper beginning of some marker.  The
accumulator got just these bytes, in parts, and released for them what the caller got.  With the
next operation, which may be any that begins no turn, the count of these bytes does not fall.  If
that operation finds a marker, the marker has a place in the text, and this place is not in front of
the count.  Then only what stands in front of the marker was handed over, and so no byte of the
marker. -/
theorem hold_back_is_exact {s₀ : Session E} {prompt : String} {parseControl : Bool}
    {maxNewTokens : Nat} {report : PrefillReport} {l : Loaded E} {ops : List Operation} {t : Turn}
    (hs : s₀.prefill prompt parseControl maxNewTokens = (.ok report, s))
    (hl : s.phase = .loaded l) (hops : ∀ op ∈ ops, ¬ op.BeginsTurn)
    (ht : (s.after ops).turn? = some t) :
    (t.finished = none →
      t.text = (s.pieces ops).flatten ∧
      (∃ k, t.released + k = t.text.length ∧ IsGreatest
        {k | k = 0 ∨ ∃ part, l.stop.Opens part ∧ part <:+ t.text ∧ part.length = k} k) ∧
      t.HandedOver (String.join (s.fragments ops))) ∧
    ∀ op t', ¬ op.BeginsTurn → ((s.after ops).perform op).2.turn? = some t' →
      t.released ≤ t'.released ∧
      ∀ m, t.finished = none → t'.finished = some (.stopMarker m) →
        m ∈ l.stop.markers ∧ ∃ start, markerStart? t'.text m = some start ∧ t.released ≤ start ∧
          ∃ parts, parts.flatten = t'.text.take start ∧
            Accumulator.empty.released parts = String.join (s.fragments (ops ++ [op])) := by
  have hover := handsOver_after_of_prefill hs hops
  obtain ⟨l₀, hl₀, hfollows⟩ := follows_after_of_prefill hs hops
  rw [hl] at hl₀
  cases hl₀
  obtain ⟨l', -, hl', hturn⟩ := exists_loaded_of_turn? ht
  have hrunning (hf : t.finished = none) :
      l'.stop = l.stop ∧ t.Tracks l.stop (s.pieces ops) (String.join (s.fragments ops)) :=
    hfollows.running l'.stop t ⟨l', hl', rfl, hturn⟩ hf
  constructor
  · intro hf
    obtain ⟨-, htracks⟩ := hrunning hf
    refine ⟨htracks.text_eq, ⟨_, ?_, l.stop.isGreatest_partialMarkerLength t.text⟩, hover t ht hf⟩
    rw [htracks.released_eq]
    exact Nat.sub_add_cancel (l.stop.partialMarkerLength_le t.text)
  · intro op t' hop ht'
    obtain ⟨l'', t'', hl'', hturn', hgoes⟩ := ((s.after ops).performs op).goes hop ht'
    rw [hl'] at hl''
    cases hl''
    rw [hturn] at hturn'
    cases hturn'
    refine ⟨hgoes.released_le fun hf => (hrunning hf).1 ▸ (hrunning hf).2, fun m hf hf' => ?_⟩
    obtain ⟨hstop, htracks⟩ := hrunning hf
    rw [hstop] at hgoes
    rw [join_fragments_append_singleton]
    exact hgoes.exists_markerStart? htracks (hover t ht hf) hf hf'

/-- Two markers begin alike.  At first the end of the reply may become either of them, and then only
the second, which begins one byte later; so one byte more was handed over.  The marker that comes
begins right behind it. -/
theorem hold_back_is_exact_of_overlapping_markers :
    let pieces := [encode "a<", encode "<x", encode ">z"]
    let s := ((ofPieces pieces { stopMarkers := ["<<y", "<x>"] }).prefill "" false 8).2
    let run := List.replicate 2 Operation.step
    ∃ t t', (s.after run).turn? = some t ∧ ((s.after run).perform .step).2.turn? = some t' ∧
      t.text = encode "a<<x" ∧ t.released = 2 ∧ t.HandedOver "a<" ∧
      t'.finished = some (.stopMarker "<x>") ∧ t.released ≤ t'.released ∧
      ∃ start, markerStart? t'.text "<x>" = some start ∧ t.released ≤ start := by
  intro pieces s run
  have hs : (ofPieces pieces { stopMarkers := ["<<y", "<x>"] }).prefill "" false 8 =
      (.ok ⟨1, 1, 9, 1024⟩, s) := prefill_eq_of_fst (by decide +kernel)
  obtain ⟨l, hl, -⟩ := exists_turn_of_prefill hs
  have hbefore : (s.after run).turn?.map (fun t => (t.text, t.released, t.finished)) =
      some (encode "a<<x", 2, none) := by decide +kernel
  have hafter : ((s.after run).perform .step).2.turn?.map Turn.finished =
      some (some (.stopMarker "<x>")) := by decide +kernel
  obtain ⟨t, ht, hvalues⟩ := Option.map_eq_some_iff.1 hbefore
  obtain ⟨t', ht', hf'⟩ := Option.map_eq_some_iff.1 hafter
  simp only [Prod.mk.injEq] at hvalues
  obtain ⟨htext, hreleased, hf⟩ := hvalues
  obtain ⟨hgoes, hnext⟩ := hold_back_is_exact hs hl not_beginsTurn_of_mem_replicate ht
  obtain ⟨hle, hfound⟩ := hnext .step t' id ht'
  obtain ⟨-, start, hstart, hbehind, -⟩ := hfound "<x>" hf hf'
  have hjoin : String.join (s.fragments run) = "a<" := by decide +kernel
  exact ⟨t, t', ht, ht', htext, hreleased, hjoin ▸ (hgoes hf).2.2, hf', hle, start, hstart, hbehind⟩

end Session
end LlmSession
