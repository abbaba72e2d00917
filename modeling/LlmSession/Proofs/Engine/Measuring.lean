import LlmSession.Proofs.Engine.Cache
import LlmSession.Proofs.Engine.Room
import LlmSession.Proofs.Engine.Transcript

/-!
# What a benchmark asks of its engine

A benchmark is a fixed sequence of calls as long as the engine makes its passes.  A pass that fails
cuts the run short, and then only the cache is emptied.  So what was asked for in one run is known
from one thing, whether it was cut and where, and what was asked for in all of them from a list of
such things, one for each run.

## Calls with their errors

A transcript says of a pass whether it was made, and not with which error it failed.  The error is
needed here, since a benchmark without any result gives that of its last run.  `Engine.Makes` is the
relation for it: these calls, one after the other and with these outcomes, lead from one state of a
context and its engine to another.  For an engine under observation the transcript then follows
(`Engine.Makes.callsIn_eq`), and so does what a cache holds after its last call.

## Nothing is wrong with the batch

A pass that could not be staged would be an error as well, and it would not be one of the engine.
That this never happens is part of each lemma here: the batch has room for everything that the
benchmark stages, and a pass leaves it the room it had (`BenchShape.Fits`).

## Main statements

* `BenchShape.exists_stagePrompt_eq_ok`: the prompt of a run can be staged, and how it stands there.
* `Engine.makes_of_generate`, `Engine.makes_of_benchmarkOnce`: the steps, and one run.
* `Engine.makes_of_benchmarkRuns`: all runs.
* `BenchTally.Counts.answer_eq_error_iff`: which runs make a benchmark an error.
-/

namespace LlmSession

/-! ## Calls about one context -/

/-- A call about a context, with the way it went. -/
inductive ContextCall where
  /-- The cache was emptied. -/
  | clear (full : Bool)
  /-- The pass over these slots was made. -/
  | pass (slots : List BatchSlot)
  /-- The pass over these slots failed with this error. -/
  | failedPass (slots : List BatchSlot) (error : SessionError)
  deriving DecidableEq, Repr

/-- The call in a transcript. -/
def ContextCall.call : ContextCall → EngineCall
  | .clear full => .clearMemory full
  | .pass slots => .decode slots true
  | .failedPass slots _ => .decode slots false

namespace Engine

/-- These calls, in this order and with these outcomes, lead from a context and a world to another
context and another world. -/
inductive Makes (E : Engine) :
    List ContextCall → E.Context → E.World → E.Context → E.World → Prop where
  | nil {context : E.Context} {w : E.World} : Makes E [] context w context w
  | clear {full : Bool} {calls : List ContextCall} {context context₁ context' : E.Context}
    {w w₁ w' : E.World} (h : E.clearMemory full context w = (context₁, w₁))
    (hrest : Makes E calls context₁ w₁ context' w') :
    Makes E (.clear full :: calls) context w context' w'
  | pass {slots : List BatchSlot} {batch : TokenBatch} {calls : List ContextCall}
    {context context₁ context' : E.Context} {w w₁ w' : E.World} (hfilled : batch.filled = slots)
    (h : E.decode batch context w = (.ok (), context₁, w₁))
    (hrest : Makes E calls context₁ w₁ context' w') :
    Makes E (.pass slots :: calls) context w context' w'
  | failedPass {slots : List BatchSlot} {batch : TokenBatch} {e : SessionError}
    {calls : List ContextCall} {context context₁ context' : E.Context} {w w₁ w' : E.World}
    (hfilled : batch.filled = slots) (h : E.decode batch context w = (.error e, context₁, w₁))
    (hrest : Makes E calls context₁ w₁ context' w') :
    Makes E (.failedPass slots e :: calls) context w context' w'

section

variable {E : Engine} {calls calls' : List ContextCall} {context context₁ context' : E.Context}
  {w w₁ w' : E.World}

theorem Makes.append (h : E.Makes calls context w context₁ w₁)
    (h' : E.Makes calls' context₁ w₁ context' w') :
    E.Makes (calls ++ calls') context w context' w' := by
  induction h with
  | nil => exact h'
  | clear hclear _ ih => exact .clear hclear (ih h')
  | pass hfilled hpass _ ih => exact .pass hfilled hpass (ih h')
  | failedPass hfilled hpass _ ih => exact .failedPass hfilled hpass (ih h')

/-- **A cache that was emptied last** holds nothing. -/
theorem Makes.records_eq_nil (cache : E.Cache) {full : Bool}
    (h : E.Makes (calls ++ [.clear full]) context w context' w') : cache.records context' = [] := by
  induction calls generalizing context w with
  | nil =>
    cases h with
    | clear hclear hrest =>
      cases hrest
      exact cache.records_clearMemory hclear
  | cons call calls ih =>
    cases h with
    | clear _ hrest => exact ih hrest
    | pass _ _ hrest => exact ih hrest
    | failedPass _ _ hrest => exact ih hrest

/-- A batch that is handed over is one pass, made or failed. -/
theorem makes_of_submit {batch : TokenBatch} {outcome : Except SessionError Unit}
    (h : E.submit batch context w = (outcome, context', w')) :
    outcome = .ok () ∧ E.Makes [.pass batch.filled] context w context' w' ∨
      ∃ e, outcome = .error e.asDecodeFailure ∧
        E.Makes [.failedPass batch.filled e] context w context' w' := by
  rcases submit_cases h with ⟨hok, hdecode⟩ | ⟨e, herror, hdecode⟩
  · exact Or.inl ⟨hok, .pass rfl hdecode .nil⟩
  · exact Or.inr ⟨e, herror, .failedPass rfl hdecode .nil⟩

end

/-- **The transcript** of an engine under observation grows by just these calls. -/
theorem Makes.callsIn_eq {E : Engine} {calls : List ContextCall}
    {context context' : E.recorded.Context} {w w' : E.recorded.World}
    (h : E.recorded.Makes calls context w context' w') :
    callsIn w' = callsIn w ++ calls.map ContextCall.call := by
  induction h with
  | nil => exact (List.append_nil _).symm
  | clear hclear _ ih =>
    rw [ih, callsIn_of_clearMemory hclear, List.append_assoc]
    rfl
  | pass hfilled hpass _ ih =>
    rw [ih, callsIn_of_decode hpass, List.append_assoc, hfilled]
    rfl
  | failedPass hfilled hpass _ ih =>
    rw [ih, callsIn_of_decode hpass, List.append_assoc, hfilled]
    rfl

/-- An engine makes its calls in the same way while it is observed. -/
theorem Makes.of_recorded {E : Engine} {calls : List ContextCall}
    {context context' : E.recorded.Context} {w w' : E.recorded.World}
    (h : E.recorded.Makes calls context w context' w') :
    E.Makes calls context w.1 context' w'.1 := by
  induction h with
  | nil => exact .nil
  | @clear full calls context context₁ context' w w₁ w' hclear _ ih =>
    have hcontext : (E.clearMemory full context w.1).1 = context₁ := congrArg Prod.fst hclear
    have hworld : (E.clearMemory full context w.1).2 = w₁.1 := congrArg (·.2.1) hclear
    exact .clear (Prod.ext hcontext hworld) ih
  | @pass slots batch calls context context₁ context' w w₁ w' hfilled hpass _ ih =>
    have hok : (E.decode batch context w.1).1 = .ok () := congrArg Prod.fst hpass
    have hcontext : (E.decode batch context w.1).2.1 = context₁ := congrArg (·.2.1) hpass
    have hworld : (E.decode batch context w.1).2.2 = w₁.1 := congrArg (·.2.2.1) hpass
    exact .pass hfilled (Prod.ext hok (Prod.ext hcontext hworld)) ih
  | @failedPass slots batch e calls context context₁ context' w w₁ w' hfilled hpass _ ih =>
    have herror : (E.decode batch context w.1).1 = .error e := congrArg Prod.fst hpass
    have hcontext : (E.decode batch context w.1).2.1 = context₁ := congrArg (·.2.1) hpass
    have hworld : (E.decode batch context w.1).2.2 = w₁.1 := congrArg (·.2.2.1) hpass
    exact .failedPass hfilled (Prod.ext herror (Prod.ext hcontext hworld)) ih

end Engine

/-! ## Room for a benchmark -/

/-- A batch has room for a benchmark. -/
structure BenchShape.Fits (s : BenchShape) (batch : TokenBatch) : Prop where
  promptTokens_pos : 0 < s.promptTokens
  sequences_pos : 0 < s.sequences
  runs_pos : 0 < s.runs
  promptTokens_le : s.promptTokens ≤ batch.capacity
  sequences_le : s.sequences ≤ batch.capacity
  sequences_le_max : s.sequences ≤ batch.maxSequences

namespace BenchShape

variable {s : BenchShape} {batch b : TokenBatch}

/-- A benchmark is refused exactly if there is no room for it. -/
theorem refusal?_eq_none_iff : s.refusal? batch = none ↔ s.Fits batch := by
  unfold refusal?
  constructor
  · intro h
    split_ifs at h with hzero hcapacity hmax
    exact ⟨by omega, by omega, by omega, by omega, by omega, by omega⟩
  · rintro ⟨hprompt, hsequences, hruns, hle, hle', hmax⟩
    rw [if_neg (by omega), if_neg (by omega), if_neg (by omega)]

theorem Fits.of_eq (h : s.Fits batch) (hcapacity : b.capacity = batch.capacity)
    (hsequences : b.maxSequences = batch.maxSequences) : s.Fits b where
  promptTokens_pos := h.promptTokens_pos
  sequences_pos := h.sequences_pos
  runs_pos := h.runs_pos
  promptTokens_le := by rw [hcapacity]; exact h.promptTokens_le
  sequences_le := by rw [hcapacity]; exact h.sequences_le
  sequences_le_max := by rw [hsequences]; exact h.sequences_le_max

/-- The slots of the pass over the prompt: places from zero on in the first sequence, and a
distribution at the last of them. -/
def promptSlots (s : BenchShape) : List BatchSlot :=
  (List.range s.promptTokens).map fun i => .ofToken ⟨0⟩ i (decide (i + 1 = s.promptTokens))

/-- **The prompt of a run can be staged**, and its last token is the one that asks for a
distribution. -/
theorem exists_stagePrompt_eq_ok (h : s.Fits batch) :
    ∃ b, s.stagePrompt batch = .ok b ∧ b.filled = s.promptSlots ∧ s.Fits b := by
  let plain := (List.range s.promptTokens).map fun i => BatchSlot.ofToken ⟨0⟩ i false
  have hlength : plain.length = s.promptTokens := by simp [plain]
  have hroom : batch.HasRoom plain := by
    refine ⟨hlength.trans_le h.promptTokens_le, fun slot hslot => ?_⟩
    obtain ⟨i, -, rfl⟩ := List.mem_map.1 hslot
    exact Nat.le_trans h.sequences_pos h.sequences_le_max
  obtain ⟨b₁, hfill, hcapacity₁, hsequences₁⟩ := TokenBatch.exists_fill_eq_ok hroom
  have hfilled₁ := TokenBatch.filled_of_fill_eq_ok hfill
  have hsize : s.promptTokens - 1 < b₁.size := by
    have hpos := h.promptTokens_pos
    rw [← TokenBatch.length_filled, hfilled₁, hlength]
    omega
  obtain ⟨b₂, hset, hcapacity₂, hsequences₂⟩ := TokenBatch.exists_setLogits_eq_ok hsize true
  refine ⟨b₂, ?_, ?_, h.of_eq (hcapacity₂.trans hcapacity₁) (hsequences₂.trans hsequences₁)⟩
  · show batch.fill plain >>= _ = _
    rw [hfill]
    exact hset
  · rw [TokenBatch.filled_of_setLogits_eq_ok hset, hfilled₁]
    refine List.ext_getElem (by simp [plain, promptSlots]) fun i hi hi' => ?_
    have hlt : i < s.promptTokens := by simpa [promptSlots] using hi'
    rw [List.getElem_modify]
    by_cases hlast : s.promptTokens - 1 = i
    · have hends : i + 1 = s.promptTokens := by omega
      simp [plain, promptSlots, hlast, hends, BatchSlot.ofToken]
    · have hends : ¬ i + 1 = s.promptTokens := by omega
      simp [plain, promptSlots, hlast, hends, BatchSlot.ofToken]

/-- The tokens of a step can be staged, whichever step it is. -/
theorem Fits.hasRoom_stepSlots (h : s.Fits batch) (step : Nat) :
    batch.HasRoom (s.stepSlots step) := by
  refine ⟨?_, fun slot hslot => ?_⟩
  · rw [stepSlots, List.length_map, List.length_range]
    exact h.sequences_le
  · obtain ⟨sequence, -, rfl⟩ := List.mem_map.1 hslot
    exact Nat.le_trans h.sequences_pos h.sequences_le_max

theorem exists_fill_stepSlots_eq_ok (h : s.Fits batch) (step : Nat) :
    ∃ b, batch.fill (s.stepSlots step) = .ok b ∧ b.filled = s.stepSlots step ∧ s.Fits b := by
  obtain ⟨b, hfill, hcapacity, hsequences⟩ :=
    TokenBatch.exists_fill_eq_ok (h.hasRoom_stepSlots step)
  exact ⟨b, hfill, TokenBatch.filled_of_fill_eq_ok hfill, h.of_eq hcapacity hsequences⟩

end BenchShape

/-! ## The calls of one run -/

/-- Where a run is cut, and with which error of the engine. -/
inductive BenchCut where
  /-- At the pass over the prompt. -/
  | prompt (error : SessionError)
  /-- At one of the steps. -/
  | step (i : Nat) (error : SessionError)
  deriving DecidableEq, Repr

/-- The error of the engine. -/
def BenchCut.error : BenchCut → SessionError
  | .prompt e => e
  | .step _ e => e

/-- The place is one of a run of this shape. -/
def BenchCut.IsOf (s : BenchShape) : BenchCut → Prop
  | .prompt _ => True
  | .step i _ => i < s.generationSteps

/-- What comes of a run that was cut, or was not. -/
def IsOutcome (cut : Option BenchCut) (outcome : Except SessionError (Float × Float)) : Prop :=
  match cut with
  | none => ∃ speeds, outcome = .ok speeds
  | some cut => outcome = .error cut.error.asDecodeFailure

section

-- the slots of a prompt, those of each step, and the number of steps
variable (prompt : List BatchSlot) (step : Nat → List BatchSlot) (steps : Nat)

/-- The calls of a run up to its last pass. -/
def passCalls : Option BenchCut → List ContextCall
  | some (.prompt e) => [.clear false, .failedPass prompt e]
  | some (.step i e) => .clear false :: .pass prompt :: .clear false ::
      ((List.range i).map (fun k => .pass (step k)) ++ [.failedPass (step i) e])
  | none => .clear false :: .pass prompt :: .clear false ::
      (List.range steps).map fun k => .pass (step k)

/-- The calls of a run. -/
def runCalls (cut : Option BenchCut) : List ContextCall :=
  passCalls prompt step steps cut ++ [.clear false]

end

namespace Engine

variable {E : Engine} {shape : BenchShape} {batch batch' : TokenBatch}
  {context context' : E.Context} {w w' : E.World}

/-- One step: its pass is made, or it fails. -/
theorem makes_of_stepSlots {step : Nat} {outcome : Except SessionError Unit}
    (hfits : shape.Fits batch)
    (h : E.submitSlots (shape.stepSlots step) batch context w = (outcome, batch', context', w')) :
    shape.Fits batch' ∧
      (outcome = .ok () ∧ E.Makes [.pass (shape.stepSlots step)] context w context' w' ∨
        ∃ e, outcome = .error e.asDecodeFailure ∧
          E.Makes [.failedPass (shape.stepSlots step) e] context w context' w') := by
  obtain ⟨b, hfilled, hcapacity, hsequences, -, heq⟩ :=
    exists_submitSlots_eq (hfits.hasRoom_stepSlots step) context w
  rw [heq, Prod.mk.injEq, Prod.mk.injEq] at h
  obtain ⟨rfl, rfl, h⟩ := h
  have hsubmit := makes_of_submit (Prod.ext rfl h :
    E.submit b context w = ((E.submit b context w).1, context', w'))
  rw [hfilled] at hsubmit
  exact ⟨hfits.of_eq hcapacity hsequences, hsubmit⟩

/-- **The steps of a generation**: all of them are made, or one fails and is the last. -/
theorem makes_of_generate {step remaining : Nat} {outcome : Except SessionError Unit}
    (hfits : shape.Fits batch)
    (h : E.generate shape step remaining batch context w = (outcome, batch', context', w')) :
    shape.Fits batch' ∧
      (outcome = .ok () ∧ E.Makes
          ((List.range' step remaining).map fun i => .pass (shape.stepSlots i))
          context w context' w' ∨
        ∃ k < remaining, ∃ e, outcome = .error e.asDecodeFailure ∧ E.Makes
          ((List.range' step k).map (fun i => .pass (shape.stepSlots i)) ++
            [.failedPass (shape.stepSlots (step + k)) e]) context w context' w') := by
  induction remaining generalizing step batch context w with
  | zero =>
    cases h
    exact ⟨hfits, Or.inl ⟨rfl, .nil⟩⟩
  | succ remaining ih =>
    unfold generate at h
    rcases hslots : E.submitSlots (shape.stepSlots step) batch context w with
      ⟨outcome₁, batch₁, context₁, w₁⟩
    obtain ⟨hfits₁, ⟨rfl, hmade⟩ | ⟨e, rfl, hfailed⟩⟩ := makes_of_stepSlots hfits hslots
    · simp only [hslots] at h
      obtain ⟨hfits', ⟨hok, hrest⟩ | ⟨k, hk, e, herror, hrest⟩⟩ := ih hfits₁ h
      · refine ⟨hfits', Or.inl ⟨hok, ?_⟩⟩
        rw [List.range'_succ, List.map_cons]
        exact hmade.append hrest
      · refine ⟨hfits', Or.inr ⟨k + 1, Nat.succ_lt_succ hk, e, herror, ?_⟩⟩
        rw [List.range'_succ, List.map_cons, show step + (k + 1) = step + 1 + k by omega]
        exact hmade.append hrest
    · simp only [hslots] at h
      cases h
      exact ⟨hfits₁, Or.inr ⟨0, Nat.succ_pos _, e, rfl, hfailed⟩⟩

/-- **One run**, up to its last pass. -/
theorem makes_of_benchmarkOnce {outcome : Except SessionError (Float × Float)}
    (hfits : shape.Fits batch)
    (h : E.benchmarkOnce shape batch context w = (outcome, batch', context', w')) :
    shape.Fits batch' ∧ ∃ cut, (∀ c ∈ cut, c.IsOf shape) ∧ IsOutcome cut outcome ∧
      E.Makes (passCalls shape.promptSlots shape.stepSlots shape.generationSteps cut) context w
        context' w' := by
  obtain ⟨staged, hstaged, hfilled, hfits₁⟩ := BenchShape.exists_stagePrompt_eq_ok hfits
  unfold benchmarkOnce at h
  rcases hempty : E.clearMemory false context w with ⟨context₁, w₁⟩
  rcases hprompt : E.submit staged context₁ w₁ with ⟨outcome₂, context₂, w₂⟩
  rcases makes_of_submit hprompt with ⟨rfl, hmade⟩ | ⟨e, rfl, hfailed⟩
  · rcases hagain : E.clearMemory false context₂ w₂ with ⟨context₃, w₃⟩
    rcases hsteps : E.generate shape 0 shape.generationSteps staged context₃ w₃ with
      ⟨outcome₄, batch₄, context₄, w₄⟩
    have hbefore : E.Makes [.clear false, .pass shape.promptSlots, .clear false] context w
        context₃ w₃ := by
      rw [hfilled] at hmade
      exact .clear hempty (hmade.append (.clear hagain .nil))
    obtain ⟨hfits', ⟨rfl, hrest⟩ | ⟨k, hk, e, rfl, hrest⟩⟩ := makes_of_generate hfits₁ hsteps
    · simp only [hstaged, hempty, hprompt, hagain, hsteps] at h
      cases h
      rw [← List.range_eq_range'] at hrest
      exact ⟨hfits', none, nofun, ⟨_, rfl⟩, hbefore.append hrest⟩
    · simp only [hstaged, hempty, hprompt, hagain, hsteps] at h
      cases h
      rw [← List.range_eq_range', Nat.zero_add] at hrest
      refine ⟨hfits', some (.step k e), ?_, rfl, hbefore.append hrest⟩
      rintro c ⟨⟩
      exact hk
  · simp only [hstaged, hempty, hprompt] at h
    cases h
    refine ⟨hfits₁, some (.prompt e), ?_, rfl, ?_⟩
    · rintro c ⟨⟩
      trivial
    · rw [hfilled] at hfailed
      exact .clear hempty hfailed

end Engine

/-! ## All runs -/

/-- What the tally of some runs says of them. -/
structure BenchTally.Counts (t : BenchTally) (cuts : List (Option BenchCut)) : Prop where
  failed_eq : t.failed = cuts.countP Option.isSome
  lastError_of_cut : ∀ cut, cuts.getLast? = some (some cut) →
    t.lastError = some cut.error.asDecodeFailure

namespace BenchTally.Counts

variable {t : BenchTally} {cuts : List (Option BenchCut)}

theorem add (h : t.Counts cuts) {cut : Option BenchCut}
    {outcome : Except SessionError (Float × Float)} (hcut : IsOutcome cut outcome) :
    (t.add outcome).Counts (cuts ++ [cut]) := by
  cases cut with
  | none =>
    obtain ⟨speeds, rfl⟩ := hcut
    refine ⟨?_, fun cut hlast => ?_⟩
    · rw [List.countP_append]
      exact h.failed_eq
    · rw [List.getLast?_concat] at hlast
      exact nomatch hlast
  | some cut =>
    obtain rfl : outcome = .error cut.error.asDecodeFailure := hcut
    refine ⟨?_, fun cut' hlast => ?_⟩
    · rw [List.countP_append]
      exact congrArg (· + 1) h.failed_eq
    · rw [List.getLast?_concat] at hlast
      cases hlast
      rfl

/-- **Which runs make a benchmark an error**: all of them, if all were cut, and then the error is
that of the last. -/
theorem answer_eq_error_iff (h : t.Counts cuts) {shape : BenchShape}
    (hlength : cuts.length = shape.runs) (hruns : 0 < shape.runs) {model : ModelSummary}
    {engine : String} {e : SessionError} :
    t.answer shape model engine = .error e ↔ (∀ cut ∈ cuts, cut.isSome = true) ∧
      ∃ cut, cuts.getLast? = some (some cut) ∧ e = cut.error.asDecodeFailure := by
  have hall : t.failed = shape.runs ↔ ∀ cut ∈ cuts, cut.isSome = true := by
    rw [h.failed_eq, ← hlength, List.countP_eq_length]
  have hne : cuts ≠ [] := List.length_pos_iff.1 (by rw [hlength]; exact hruns)
  have hlast : (∀ cut ∈ cuts, cut.isSome = true) → ∃ cut, cuts.getLast? = some (some cut) := by
    intro hcuts
    obtain ⟨cut, hcut⟩ := Option.isSome_iff_exists.1 (hcuts _ (List.getLast_mem hne))
    exact ⟨cut, by rw [List.getLast?_eq_some_getLast hne, hcut]⟩
  unfold BenchTally.answer
  constructor
  · intro hanswer
    split at hanswer
    · next e' herror =>
      split at hanswer
      · next hfailed =>
        cases hanswer
        obtain ⟨cut, hcut⟩ := hlast (hall.1 hfailed)
        have hsame := herror.symm.trans (h.lastError_of_cut cut hcut)
        exact ⟨hall.1 hfailed, cut, hcut, Option.some.inj hsame⟩
      · exact nomatch hanswer
    · exact nomatch hanswer
  · rintro ⟨hcuts, cut, hcut, rfl⟩
    rw [h.lastError_of_cut cut hcut]
    exact if_pos (hall.2 hcuts)

theorem failedRuns_eq (h : t.Counts cuts) {shape : BenchShape} {model : ModelSummary}
    {engine : String} {report : BenchReport} (hanswer : t.answer shape model engine = .ok report) :
    report.failedRuns = cuts.countP Option.isSome := by
  rw [← h.failed_eq]
  unfold BenchTally.answer at hanswer
  split at hanswer
  · split at hanswer
    · exact nomatch hanswer
    · cases hanswer
      rfl
  · cases hanswer
    rfl

end BenchTally.Counts

/-- **All runs**, one after the other, each up to where it is cut, and each with an empty cache
after it. -/
theorem Engine.makes_of_benchmarkRuns {E : Engine} {shape : BenchShape} {batch batch' : TokenBatch}
    {context context' : E.Context} {w w' : E.World} {runs : Nat} {tally tally' : BenchTally}
    {before : List (Option BenchCut)} (hfits : shape.Fits batch) (hcounts : tally.Counts before)
    (h : E.benchmarkRuns shape runs tally batch context w = (tally', batch', context', w')) :
    shape.Fits batch' ∧ ∃ cuts, cuts.length = runs ∧ (∀ cut ∈ cuts, ∀ c ∈ cut, c.IsOf shape) ∧
      tally'.Counts (before ++ cuts) ∧
      E.Makes (cuts.flatMap (runCalls shape.promptSlots shape.stepSlots shape.generationSteps))
        context w context' w' := by
  induction runs generalizing tally before batch context w with
  | zero =>
    cases h
    refine ⟨hfits, [], rfl, nofun, ?_, .nil⟩
    rwa [List.append_nil]
  | succ runs ih =>
    unfold benchmarkRuns at h
    rcases honce : E.benchmarkOnce shape batch context w with ⟨outcome, batch₁, context₁, w₁⟩
    rcases hempty : E.clearMemory false context₁ w₁ with ⟨context₂, w₂⟩
    simp only [honce, hempty] at h
    obtain ⟨hfits₁, cut, hof, hcut, hmade⟩ := makes_of_benchmarkOnce hfits honce
    obtain ⟨hfits', cuts, hlength, hofs, hcounts', hrest⟩ := ih hfits₁ (hcounts.add hcut) h
    refine ⟨hfits', cut :: cuts, congrArg (· + 1) hlength, List.forall_mem_cons.2 ⟨hof, hofs⟩, ?_,
      (hmade.append (.clear hempty .nil)).append hrest⟩
    rwa [List.append_assoc, List.singleton_append] at hcounts'

end LlmSession
