import LlmSession.Proofs.Session.Run
import LlmSession.Proofs.Turn.Tracking

/-!
# What a run has given so far

`Turn.Tracks` speaks of one turn that runs.  Here it is carried through a session, over every
run that begins no other turn.  Between the steps of a turn a caller may do anything else: the
cache may be emptied, the context be replaced, or the model be given up.  The turn is then
interrupted or gone, and gives nothing more.

## The invariant

A session *follows* the pieces that came and the text that went (`Session.Follows`) if its turn
tracks them while it runs, and if it has given what a turn that is over gives once it is over.
What holds in every case, with a turn or without, is that the text passes (`passes`).

## Main statements

* `Session.Follows.perform`: one operation.
* `Session.Follows.after`: a run.
* `Session.follows_of_prefill`, `Session.follows_after_of_prefill`: where it begins, and a run from
  there.
-/

namespace LlmSession

open Utf8

/-! ## Turns that differ in their cursor only -/

namespace Turn

variable {c : StopConditions} {pieces : List (List UInt8)} {out : String} {t : Turn}

theorem Tracks.moved (h : t.Tracks c pieces out) (cursor : Nat) :
    { t with cursor }.Tracks c pieces out :=
  ⟨h.text_eq, h.not_contains, h.released_eq, h.isReleased⟩

theorem finished_interrupt_ne_none (t : Turn) : t.interrupt.finished ≠ none := by
  cases hf : t.finished with
  | none =>
    rw [interrupt, hf]
    exact Option.some_ne_none _
  | some reason =>
    have hsame : t.interrupt = t := by rw [interrupt, hf]
    rw [hsame, hf]
    exact Option.some_ne_none reason

/-- What a running turn has released so far. -/
theorem Tracks.passes (h : t.Tracks c pieces out) : c.Passes pieces.flatten out := by
  intro hc
  rw [← h.text_eq] at hc ⊢
  have hprefix : t.text.take t.released <+: t.text := List.take_prefix _ _
  exact Or.inl ⟨h.not_contains, (h.isReleased (hc.of_prefix hprefix)).1.1⟩

end Turn

/-- Text that waits for more bytes passes as before, if the bytes complete no marker. -/
theorem StopConditions.Passes.append {c : StopConditions} {reply piece : List UInt8}
    {out : String} (h : c.Passes reply out) (hno : ¬ c.Contains (reply ++ piece)) :
    c.Passes (reply ++ piece) out := by
  intro hc
  refine Or.inl ⟨hno, ?_⟩
  rcases h (hc.of_prefix (List.prefix_append reply piece)) with ⟨-, hp⟩ | ⟨m, _, hfind, -, -⟩
  · exact hp.trans (List.prefix_append reply piece)
  · have hin := List.find?_some hfind
    rw [occursIn_iff] at hin
    exact absurd ⟨m, List.mem_of_find?_eq_some hfind, hin.trans (List.infix_append' [] _ _)⟩ hno

theorem Loaded.isVerdict_of_verdict_eq_some {E : Engine} {l : Loaded E} {limit : LengthLimit}
    {t : Turn} {token : Token} {reason : StopReason}
    (h : l.verdict limit t token = some reason) : reason.IsVerdict := by
  unfold Loaded.verdict at h
  split_ifs at h <;> cases h <;> trivial

/-! ## The text of an answer -/

/-- The text that an answer gives, which is empty if it gives none. -/
def textOf (answer : Except SessionError Answer) : String := (fragment? answer).getD ""

theorem textOf_error (e : SessionError) : textOf ((Except.error e).map .stepped) = "" := rfl

theorem textOf_fragment (text : String) :
    textOf ((Except.ok (.fragment text)).map .stepped) = text := rfl

/-- The step that ends a turn gives what was still held back, also if that is nothing. -/
theorem textOf_closing (held : String) (reason : StopReason) :
    textOf ((Except.ok (.closing held reason)).map .stepped) = held := by
  unfold Step.closing
  split
  · next h => exact h.symm
  · rfl

theorem textOf_of_ne_fragment {answer : Except SessionError Answer}
    (h : ∀ text, answer ≠ .ok (.stepped (.fragment text))) : textOf answer = "" := by
  unfold textOf fragment?
  split
  · next text => exact absurd rfl (h text)
  · rfl

namespace Session

variable {E : Engine} {s : Session E} {c : StopConditions} {pieces : List (List UInt8)}
  {out : String}

theorem join_fragments_cons (s : Session E) (op : Operation) (ops : List Operation) :
    String.join (s.fragments (op :: ops)) =
      textOf (s.perform op).1 ++ String.join ((s.perform op).2.fragments ops) := by
  rw [fragments_cons, String.join_append, textOf]
  cases fragment? (s.perform op).1 with
  | none => rw [Option.toList_none, String.join_nil, Option.getD_none]
  | some text => rw [Option.toList_some, String.join_cons, String.join_nil, String.append_empty,
      Option.getD_some]

/-- The session has given `out` for the pieces, and the conditions are those under which its
turn began. -/
structure Follows (c : StopConditions) (pieces : List (List UInt8)) (out : String)
    (s : Session E) : Prop where
  running : ∀ stop t, s.HasTurn stop t → t.finished = none → stop = c ∧ t.Tracks c pieces out
  ended : ∀ stop t reason, s.HasTurn stop t → t.finished = some reason → reason ≠ .interrupted →
    Turn.Ended c pieces out reason
  passes : c.Passes pieces.flatten out

/-- A session without a turn that runs or has come to its end. -/
theorem follows_of_passes (hturn : ∀ stop t, s.HasTurn stop t → t.finished = some .interrupted)
    (h : c.Passes pieces.flatten out) : s.Follows c pieces out where
  running stop t ht hf := by
    rw [hturn stop t ht] at hf
    exact nomatch hf
  ended stop t reason ht hf hne := by
    rw [hturn stop t ht] at hf
    cases hf
    exact absurd rfl hne
  passes := h

theorem eq_of_hasTurn {l : Loaded E} {t t' : Turn} {stop : StopConditions}
    (hl : s.phase = .loaded l) (ht : l.turn = some t) (h : s.HasTurn stop t') :
    stop = l.stop ∧ t' = t := by
  obtain ⟨hstop, ht'⟩ := (hasTurn_iff hl).1 h
  rw [ht] at ht'
  cases ht'
  exact ⟨hstop.symm, rfl⟩

/-- A session with a turn that runs. -/
theorem follows_of_tracks {l : Loaded E} {t : Turn} (hl : s.phase = .loaded l)
    (ht : l.turn = some t) (hf : t.finished = none) (hstop : l.stop = c)
    (h : t.Tracks c pieces out) : s.Follows c pieces out where
  running stop t' ht' _ := by
    obtain ⟨rfl, rfl⟩ := eq_of_hasTurn hl ht ht'
    exact ⟨hstop, h⟩
  ended stop t' reason ht' hf' _ := by
    obtain ⟨-, rfl⟩ := eq_of_hasTurn hl ht ht'
    rw [hf] at hf'
    exact nomatch hf'
  passes := h.passes

/-- A session with a turn that is over. -/
theorem follows_of_ended {l : Loaded E} {t : Turn} {reason : StopReason}
    (hl : s.phase = .loaded l) (ht : l.turn = some t) (hf : t.finished = some reason)
    (h : Turn.Ended c pieces out reason) (hp : c.Passes pieces.flatten out) :
    s.Follows c pieces out where
  running stop t' ht' hf' := by
    obtain ⟨-, rfl⟩ := eq_of_hasTurn hl ht ht'
    rw [hf] at hf'
    exact nomatch hf'
  ended stop t' reason' ht' hf' _ := by
    obtain ⟨-, rfl⟩ := eq_of_hasTurn hl ht ht'
    rw [hf] at hf'
    cases hf'
    exact h
  passes := hp

/-! ## One operation -/

/-- **An operation that does not step** keeps what was given. -/
theorem Follows.perform_of_ne_step (h : s.Follows c pieces out) {op : Operation}
    (hbegin : ¬ op.BeginsTurn) (hstep : op ≠ .step) (hstepFor : ∀ id, op ≠ .stepFor id) :
    (s.perform op).2.Follows c pieces out where
  running stop t ht hf := by
    obtain ⟨t₀, ht₀, rfl | rfl⟩ := exists_hasTurn_of_perform hbegin hstep hstepFor ht
    · exact h.running stop t ht₀ hf
    · exact absurd hf (Turn.finished_interrupt_ne_none t₀)
  ended stop t reason ht hf hne := by
    obtain ⟨t₀, ht₀, rfl | rfl⟩ := exists_hasTurn_of_perform hbegin hstep hstepFor ht
    · exact h.ended stop t reason ht₀ hf hne
    · cases hf₀ : t₀.finished with
      | none =>
        rw [Turn.interrupt, hf₀] at hf
        cases hf
        exact absurd rfl hne
      | some reason₀ =>
        rw [Turn.interrupt, hf₀] at hf
        exact h.ended stop t₀ reason ht₀ hf hne
  passes := h.passes

/-- **A step** of the turn. -/
theorem Follows.step (h : s.Follows c pieces out) :
    (s.perform .step).2.Follows c (pieces ++ (s.piece? .step).toList)
      (out ++ textOf (s.perform .step).1) := by
  rw [perform]
  by_cases hrun : ∃ l t, s.phase = .loaded l ∧ l.turn = some t ∧ t.finished = none
  · obtain ⟨l, t, hl, ht, hf⟩ := hrun
    obtain ⟨rfl, htracks⟩ := h.running l.stop t ⟨l, hl, rfl, ht⟩ hf
    obtain ⟨outcome, l', w', hsteps, hstep⟩ := decodeStep_of_running hl ht hf
    rw [hstep, piece?_step hl]
    cases hsteps with
    | verdict hv =>
      obtain ⟨hended, hpasses⟩ := htracks.finish (Loaded.isVerdict_of_verdict_eq_some hv)
      rw [Loaded.piece?_of_verdict ht hv, Option.toList_none, List.append_nil, textOf_closing]
      exact follows_of_ended rfl rfl (Turn.finished_finish t _) hended hpasses
    | noBytes hv hd =>
      rw [Loaded.piece?_of_detokenize ht hf hv hd, textOf_error, String.append_empty]
      show Follows l.stop (pieces ++ []) out _
      rw [List.append_nil]
      exact follows_of_passes (fun stop t' ht' => absurd ht' (not_hasTurn (by
        intro l' hl'
        cases hl'
        rfl) stop t')) h.passes
    | marker hv hd hm =>
      obtain ⟨hended, hpasses⟩ := htracks.cutAt hm
      rw [Loaded.piece?_of_detokenize ht hf hv hd, textOf_closing]
      exact follows_of_ended rfl rfl (Turn.finished_cutAt _ _) hended hpasses
    | taken hv hd hm hp =>
      have hno := (StopConditions.findMarker?_append_eq_none_iff htracks.not_contains _).1 hm
      rw [Loaded.piece?_of_detokenize ht hf hv hd, textOf_fragment]
      refine follows_of_tracks rfl rfl ?_ rfl ((htracks.grow hno).moved (t.cursor + 1))
      exact (Turn.finished_releaseUpTo _ _).trans hf
    | lost hv hd hm hp =>
      have hno := (StopConditions.findMarker?_append_eq_none_iff htracks.not_contains _).1 hm
      rw [Loaded.piece?_of_detokenize ht hf hv hd, textOf_error, String.append_empty]
      refine follows_of_passes (fun stop t' ht' => absurd ht' (not_hasTurn (by
        intro l' hl'
        cases hl'
        rfl) stop t')) ?_
      rw [Except.toOption, Option.toList_some, List.flatten_append, List.flatten_singleton]
      rw [htracks.text_eq] at hno
      exact h.passes.append hno
  · have hrun' : ∀ stop t, s.HasTurn stop t → t.finished ≠ none := by
      rintro stop t ⟨l, hl, -, ht⟩ hf
      exact hrun ⟨l, t, hl, ht, hf⟩
    obtain ⟨hsame, hnone⟩ := decodeStep_of_not_running hrun'
    rw [piece?_step_of_not_running hrun', Option.toList_none, List.append_nil,
      textOf_of_ne_fragment hnone, String.append_empty]
    exact hsame.symm ▸ h

theorem textOf_perform_of_ne_step {op : Operation} (hstep : op ≠ .step)
    (hstepFor : ∀ id, op ≠ .stepFor id) : textOf (s.perform op).1 = "" :=
  textOf_of_ne_fragment fun text => perform_ne_stepped hstep hstepFor (.fragment text)

/-- **One operation** that begins no turn. -/
theorem Follows.perform (h : s.Follows c pieces out) {op : Operation} (hop : ¬ op.BeginsTurn) :
    (s.perform op).2.Follows c (pieces ++ (s.piece? op).toList)
      (out ++ textOf (s.perform op).1) := by
  by_cases hstep : op = .step
  · rw [hstep]
    exact h.step
  by_cases hstepFor : ∃ id, op = .stepFor id
  · obtain ⟨id, rfl⟩ := hstepFor
    rcases s.stepFor_cases id with ⟨hsame, hpiece⟩ | ⟨hsame, ⟨e, he⟩, hpiece⟩
    · rw [hsame, hpiece]
      exact h.step
    · rw [hsame, he, hpiece, Option.toList_none, List.append_nil]
      exact (String.append_empty (s := out)).symm ▸ h
  have hstepFor' : ∀ id, op ≠ .stepFor id := fun id hid => hstepFor ⟨id, hid⟩
  rw [piece?_of_ne_step hstep hstepFor', textOf_perform_of_ne_step hstep hstepFor',
    Option.toList_none, List.append_nil, String.append_empty]
  exact h.perform_of_ne_step hop hstep hstepFor'

/-- **A run** that begins no turn. -/
theorem Follows.after {ops : List Operation} (h : s.Follows c pieces out)
    (hops : ∀ op ∈ ops, ¬ op.BeginsTurn) :
    (s.after ops).Follows c (pieces ++ s.pieces ops) (out ++ String.join (s.fragments ops)) := by
  induction ops generalizing s pieces out with
  | nil =>
    rw [fragments_nil, String.join_nil, String.append_empty]
    show s.Follows c (pieces ++ []) out
    rwa [List.append_nil]
  | cons op ops ih =>
    obtain ⟨hop, hrest⟩ := List.forall_mem_cons.1 hops
    have hnext := ih (h.perform hop) hrest
    rwa [List.append_assoc, String.append_assoc, ← join_fragments_cons] at hnext

/-- **Where it begins.** -/
theorem follows_of_prefill {s₀ : Session E} {prompt : String} {parseControl : Bool}
    {maxNewTokens : Nat} {report : PrefillReport}
    (h : s₀.prefill prompt parseControl maxNewTokens = (.ok report, s)) :
    ∃ l, s.phase = .loaded l ∧ s.Follows l.stop [] "" := by
  obtain ⟨l, hl, ht⟩ := exists_turn_of_prefill h
  exact ⟨l, hl, follows_of_tracks hl ht rfl rfl (Turn.tracks_start l.stop _ _ _)⟩

/-- A run from there. -/
theorem follows_after_of_prefill {s₀ : Session E} {prompt : String} {parseControl : Bool}
    {maxNewTokens : Nat} {report : PrefillReport} {ops : List Operation}
    (h : s₀.prefill prompt parseControl maxNewTokens = (.ok report, s))
    (hops : ∀ op ∈ ops, ¬ op.BeginsTurn) :
    ∃ l, s.phase = .loaded l ∧
      (s.after ops).Follows l.stop (s.pieces ops) (String.join (s.fragments ops)) := by
  obtain ⟨l, hl, hfollows⟩ := follows_of_prefill h
  have hafter := hfollows.after hops
  rw [List.nil_append, String.empty_append] at hafter
  exact ⟨l, hl, hafter⟩

end Session
end LlmSession
