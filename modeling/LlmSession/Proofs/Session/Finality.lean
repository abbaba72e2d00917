import LlmSession.Proofs.Session.Length
import LlmSession.Proofs.Session.Streaming

/-!
# A turn that is over stays over

A turn gets its reason in one of two ways.  A step of it may find that it is over, by a token, for
want of room or at a marker.  Or the cache is emptied under it, by itself or around a benchmark, and
the turn is interrupted.  From then on the reason is all that it gives.

## Why this is not about steps alone

A step looks at the reason first, so two steps in a row are no difficulty.  But whoever clears the
cache or asks for a benchmark does so to whatever turn is there, and either of them writes a reason
into a turn.  It must not write over the one that is there (`Turn.interrupt_of_finished`), and
nothing else may touch the turn at all.  What does end it is what takes the turn away, together with
its reason: a new turn, also one that cannot begin, a new context, and unloading.

## Text with the reason

The step that finds the reason may still have text to give, which was held back as the possible
beginning of a marker, and then it gives the text and leaves the reason to the next step.  A turn
that is interrupted gives nothing more; what was held back of it is lost.

## Main statements

* `Session.Performs.stops`: the operations that end a turn.
* `Session.Performs.turn?_of_finished`: what an operation does to a turn that is over.
* `Session.stop_is_final`: both, along every run.
-/

namespace LlmSession

namespace Operation

/-- Whether an operation on a loaded session takes the turn away. -/
def GivesUpTurn : Operation → Prop
  | .reload _ _ => True
  | .prefill _ _ _ => True
  | .unload => True
  | _ => False

/-- Whether an operation empties the cache under the turn. -/
def Interrupts : Operation → Prop
  | .clearCache _ => True
  | .benchmark _ => True
  | _ => False

end Operation

theorem Step.closing_cases (held : String) (reason : StopReason) :
    Step.closing held reason = .endOfStream reason ∨
      held ≠ "" ∧ Step.closing held reason = .fragment held := by
  unfold Step.closing
  split
  · exact Or.inl rfl
  · next hne => exact Or.inr ⟨hne, rfl⟩

/-- The text that goes with a reason, or the reason itself. -/
theorem reason?_closing_or_fragment?_closing (held : String) (reason : StopReason) :
    reason? ((Except.ok (Step.closing held reason)).map .stepped) = some reason ∨
      ∃ text, text ≠ "" ∧
        fragment? ((Except.ok (Step.closing held reason)).map .stepped) = some text := by
  rcases Step.closing_cases held reason with hend | ⟨hne, htext⟩
  · rw [hend]
    exact Or.inl rfl
  · rw [htext]
    exact Or.inr ⟨held, hne, rfl⟩

/-- A step that ends its turn. -/
theorem Loaded.Steps.stops {E : Engine} {l l' : Loaded E} {limit : LengthLimit} {t t' : Turn}
    {w w' : E.World} {outcome : Except SessionError Step} {reason : StopReason}
    (hs : l.Steps limit t w (outcome, l', w')) (hf : t.finished = none) (ht' : l'.turn = some t')
    (hf' : t'.finished = some reason) :
    reason ≠ .interrupted ∧ (reason? (outcome.map .stepped) = some reason ∨
      ∃ text, text ≠ "" ∧ fragment? (outcome.map .stepped) = some text) := by
  cases hs with
  | verdict hv =>
    cases ht'
    rw [Turn.finished_finish] at hf'
    cases hf'
    refine ⟨?_, reason?_closing_or_fragment?_closing _ _⟩
    rintro rfl
    exact isVerdict_of_verdict_eq_some hv
  | marker hv hd hm =>
    cases ht'
    rw [Turn.finished_cutAt] at hf'
    cases hf'
    exact ⟨nofun, reason?_closing_or_fragment?_closing _ _⟩
  | taken hv hd hm hpass =>
    -- a turn whose token goes into the cache goes on
    cases ht'
    rw [finished_release, hf] at hf'
    exact nomatch hf'
  | noBytes hv hd => exact nomatch ht'
  | lost hv hd hm hpass => exact nomatch ht'

namespace Session

variable {E : Engine} {s : Session E} {op : Operation} {t t' : Turn} {reason : StopReason}
  {result : Except SessionError Answer × Session E}

theorem phase_ne_idle_of_turn? (ht : s.turn? = some t) : s.phase ≠ .idle := by
  obtain ⟨l, -, hl, -⟩ := exists_loaded_of_turn? ht
  rw [hl]
  exact nofun

/-! ## How a turn ends -/

/-- An operation that gave a turn its reason: a step of it, which gives the reason or the text that
was held back, or one that emptied the cache. -/
inductive Stops (op : Operation) (t : Turn) (reason : StopReason)
    (answer : Except SessionError Answer) : Prop where
  | found (hop : op.isStepOf t.id = true) (hreason : reason ≠ .interrupted)
    (hanswer : reason? answer = some reason ∨ ∃ text, text ≠ "" ∧ fragment? answer = some text)
  | interrupted (hop : op.Interrupts) (hreason : reason = .interrupted)
    (hanswer : fragment? answer = none)

/-- **What ends a turn.** -/
theorem Performs.stops (hp : s.Performs op result) (ht : s.turn? = some t)
    (hf : t.finished = none) (ht' : result.2.turn? = some t') (hf' : t'.finished = some reason) :
    Stops op t reason result.1 := by
  -- an operation that leaves the turn alone gives it no reason
  have hkept : some t' ≠ some t := by
    intro hsame
    cases hsame
    rw [hf] at hf'
    exact nomatch hf'
  have hinterrupted (hturn : some t' = (some t).map Turn.interrupt) : reason = .interrupted := by
    cases hturn
    rw [Turn.finished_interrupt_of_running hf] at hf'
    exact (Option.some.inj hf').symm
  induction hp with
  | notIdle _ => exact absurd (ht'.symm.trans ht) hkept
  | notLoaded _ _ => exact absurd (ht'.symm.trans ht) hkept
  | noTurn _ _ => exact absurd (ht'.symm.trans ht) hkept
  | replaced _ _ => exact absurd (ht'.symm.trans ht) hkept
  | finished _ _ _ => exact absurd (ht'.symm.trans ht) hkept
  | loadFailed _ _ => exact absurd (ht'.symm.trans ht) hkept
  | loaded hidle _ => exact absurd hidle (phase_ne_idle_of_turn? ht)
  | faulted _ _ => exact nomatch ht'
  | reloaded _ _ => exact nomatch ht'
  | unloaded => exact nomatch ht'
  | notBegun _ hp =>
    rw [turn?_of_loaded rfl, hp.turn_of_error] at ht'
    exact nomatch ht'
  | begun _ hp =>
    -- a new turn has no reason yet
    cases hp with
    | begun _ _ _ _ _ _ =>
      cases ht'
      exact nomatch hf'
  | stepped hl ht₀ _ hstep =>
    rw [turn?_of_loaded hl] at ht
    rw [ht] at ht₀
    cases ht₀
    obtain ⟨hreason, hanswer⟩ := hstep.stops hf ht' hf'
    exact .found rfl hreason hanswer
  | stepFor hid _ ih =>
    cases ih ht' with
    | found _ hreason hanswer =>
      exact .found (decide_eq_true (hid _ (turnId?_of_turn? ht)).symm) hreason hanswer
    | interrupted hop _ _ => exact hop.elim
  | cleared hl _ =>
    rw [turn?_of_loaded hl] at ht
    rw [turn?_of_loaded rfl, ht] at ht'
    exact .interrupted trivial (hinterrupted ht'.symm) rfl
  | @measured l shape outcome batch context w hl hb =>
    rw [turn?_of_loaded hl] at ht
    rw [turn?_of_loaded rfl, ht] at ht'
    refine .interrupted trivial (hinterrupted ht'.symm) ?_
    cases outcome <;> rfl

/-- **What empties the cache** ends a turn that is not over. -/
theorem turn?_of_interrupts (ht : s.turn? = some t) (hf : t.finished = none)
    (hop : op.Interrupts) :
    (s.perform op).2.turn? = some { t with finished := some .interrupted } := by
  obtain ⟨l, -, hl, ht⟩ := exists_loaded_of_turn? ht
  have hinterrupt : l.turn.map Turn.interrupt = some { t with finished := some .interrupted } := by
    rw [ht, Option.map_some, Turn.interrupt, hf]
  cases op with
  | clearCache full =>
    simp only [perform, clearCache, hl]
    exact hinterrupt
  | benchmark shape =>
    simp only [perform, benchmark, hl]
    exact hinterrupt
  | _ => exact hop.elim

/-! ## What becomes of a turn that is over -/

/-- **An operation leaves a turn that is over as it is**, unless it takes it away, and gives no
text. -/
theorem Performs.turn?_of_finished (hp : s.Performs op result) (ht : s.turn? = some t)
    (hf : t.finished = some reason) (hop : ¬ op.GivesUpTurn) :
    result.2.turn? = some t ∧ fragment? result.1 = none := by
  have hinterrupt : (some t).map Turn.interrupt = some t := by
    rw [Option.map_some, Turn.interrupt_of_finished hf]
  induction hp with
  | notIdle _ => exact ⟨ht, rfl⟩
  | notLoaded _ _ => exact ⟨ht, rfl⟩
  | noTurn _ _ => exact ⟨ht, rfl⟩
  | replaced _ _ => exact ⟨ht, rfl⟩
  | finished _ _ _ => exact ⟨ht, rfl⟩
  | loadFailed _ _ => exact ⟨ht, rfl⟩
  | loaded hidle _ => exact absurd hidle (phase_ne_idle_of_turn? ht)
  | faulted _ _ => exact absurd trivial hop
  | reloaded _ _ => exact absurd trivial hop
  | notBegun _ _ => exact absurd trivial hop
  | begun _ _ => exact absurd trivial hop
  | unloaded => exact absurd trivial hop
  | stepped hl ht₀ hf₀ _ =>
    rw [turn?_of_loaded hl, ht₀] at ht
    cases ht
    rw [hf] at hf₀
    exact nomatch hf₀
  | stepFor _ _ ih => exact ih id
  | cleared hl _ =>
    rw [turn?_of_loaded hl] at ht
    rw [turn?_of_loaded rfl, ht]
    exact ⟨hinterrupt, rfl⟩
  | @measured l shape outcome batch context w hl hb =>
    rw [turn?_of_loaded hl] at ht
    rw [turn?_of_loaded rfl, ht]
    refine ⟨hinterrupt, ?_⟩
    cases outcome <;> rfl

/-- **A run** of such operations gives no text, and the turn is there as it was. -/
theorem turn?_after_of_finished (ht : s.turn? = some t) (hf : t.finished = some reason)
    {ops : List Operation} (hops : ∀ op ∈ ops, ¬ op.GivesUpTurn) :
    (s.after ops).turn? = some t ∧ s.fragments ops = [] := by
  induction ops generalizing s with
  | nil => exact ⟨ht, rfl⟩
  | cons op ops ih =>
    obtain ⟨hop, hops⟩ := List.forall_mem_cons.1 hops
    obtain ⟨hturn, hnone⟩ := (s.performs op).turn?_of_finished ht hf hop
    obtain ⟨hafter, hrest⟩ := ih hturn hops
    refine ⟨hafter, ?_⟩
    rw [fragments_cons, hnone, hrest]
    rfl

/-- **A stop is final.**  A turn that is not over is interrupted by whatever empties the cache, and
a step that answers with a reason has given the turn this reason.  Whichever operation it is that
gives the turn a reason, it gives at most one text more, and only if it is a step.  After it, as
long as the turn is not taken away, nothing gives any text, the turn stays as it is, and every step
of it answers with the reason, without a change to the session and without a call to the engine. -/
theorem stop_is_final {s : Session E.recorded} {t : Turn} (ht : s.turn? = some t)
    (hf : t.finished = none) (op : Operation) :
    (op.Interrupts →
      (s.perform op).2.turn? = some { t with finished := some .interrupted }) ∧
    (∀ reason, reason? (s.perform op).1 = some reason →
      ∃ t', (s.perform op).2.turn? = some t' ∧ t'.finished = some reason) ∧
    ∀ t' reason, (s.perform op).2.turn? = some t' → t'.finished = some reason →
      Stops op t reason (s.perform op).1 ∧
      ∀ ops, (∀ later ∈ ops, ¬ later.GivesUpTurn) →
        let stopped := s.after (op :: ops)
        s.fragments (op :: ops) = (fragment? (s.perform op).1).toList ∧
        stopped.turn? = some t' ∧
        ∀ next, next.isStepOf t'.id = true →
          stopped.perform next = (.ok (.stepped (.endOfStream reason)), stopped) ∧
          (stopped.perform next).2.calls = stopped.calls := by
  refine ⟨turn?_of_interrupts ht hf, ?_, ?_⟩
  · intro reason hreason
    obtain ⟨stop, t', ⟨l, hl, -, ht'⟩, hf'⟩ := exists_finished_of_perform hreason
    exact ⟨t', (turn?_of_loaded hl).trans ht', hf'⟩
  · intro t' reason ht' hf'
    refine ⟨(s.performs op).stops ht hf ht' hf', ?_⟩
    intro ops hops stopped
    obtain ⟨hturn, hnone⟩ : stopped.turn? = some t' ∧ (s.perform op).2.fragments ops = [] :=
      turn?_after_of_finished ht' hf' hops
    refine ⟨?_, hturn, ?_⟩
    · rw [fragments_cons, hnone, List.append_nil]
    · intro next hnext
      have hstep : stopped.perform next = (.ok (.stepped (.endOfStream reason)), stopped) := by
        rw [perform_of_isStepOf (turnId?_of_turn? hturn) hnext, decodeStep_of_finished hturn hf']
        rfl
      exact ⟨hstep, by rw [hstep]⟩

/-- The third step draws the token that ends the reply, and gives the text that was held back.
After that the cache is emptied twice, and of all that is asked for nothing changes the reason. -/
theorem stop_is_final_of_held_text :
    let script : Script := { replies := [.ofByte 0x61, .ofByte 0x3c] }
    let s := (observed (E := script.engine) {} ({} : Script.World)).after
      [.load "model", .prefill "q" false 8, .step, .step]
    let between : List Operation := [.clearCache true, .step,
      .benchmark { promptTokens := 1, generationSteps := 1, sequences := 1, runs := 1 },
      .load "again", .stepFor 7]
    let stopped := s.after (.step :: between)
    s.fragments (.step :: between) = ["<"] ∧
      stopped.perform (.stepFor 1) = (.ok (.stepped (.endOfStream .endOfGeneration)), stopped) ∧
      (s.perform (.clearCache true)).2.turn?.map Turn.finished = some (some .interrupted) := by
  intro script s between stopped
  have hrunning : s.turn?.map Turn.finished = some none := by decide +kernel
  obtain ⟨t, ht, hf⟩ := Option.map_eq_some_iff.1 hrunning
  have hover : (s.perform .step).2.turn?.map (fun t => (t.id, t.finished)) =
      some (1, some .endOfGeneration) := by decide +kernel
  obtain ⟨t', ht', heq⟩ := Option.map_eq_some_iff.1 hover
  rw [Prod.mk.injEq] at heq
  have hbetween : ∀ later ∈ between, ¬ later.GivesUpTurn := by
    simp only [between, List.forall_mem_cons]
    exact ⟨id, id, id, id, id, fun _ hop => absurd hop List.not_mem_nil⟩
  have hheld : fragment? (s.perform .step).1 = some "<" := by decide +kernel
  obtain ⟨hinterrupts, -⟩ := stop_is_final ht hf (.clearCache true)
  obtain ⟨-, -, hstops⟩ := stop_is_final ht hf .step
  obtain ⟨-, hlater⟩ := hstops t' _ ht' heq.2
  obtain ⟨hfragments, -, hsteps⟩ := hlater between hbetween
  refine ⟨?_, (hsteps (.stepFor 1) (decide_eq_true heq.1.symm)).1, ?_⟩
  · rw [hfragments, hheld]
    rfl
  · rw [hinterrupts trivial]
    rfl

end Session
end LlmSession
