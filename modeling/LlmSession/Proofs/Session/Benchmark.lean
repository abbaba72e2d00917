import LlmSession.Proofs.Engine.Measuring
import LlmSession.Proofs.Session.Course

/-!
# A benchmark in the middle of a session

A benchmark uses what the session has: its context, its batch and its cache.  What it does with them
is fixed by its shape and by the passes that fail, and at the end nothing of it is left in the
cache.  A turn that was going on cannot go on after that, for its tokens are gone; so it is
interrupted.

## A benchmark that is refused

A shape that the batch has no room for is refused before anything runs, and the engine is not asked
for anything.  The tokens of the turn are still there, and it could go on.  But by then the turn has
been interrupted already.  So a benchmark that did nothing ends the turn as one that ran would have,
and everything that the turn had still to give is lost.  For a turn that is over, or none at all,
the session is what it was.

## Main statements

* `Session.exists_cuts_of_benchmark`: what a benchmark asks for, and what it answers.
* `Session.benchmark_of_refusal?`: what a refused benchmark leaves.
* `Session.not_endsWith_interrupted`: steps do not interrupt a turn.
* `Session.refused_benchmark_iff`: when a refused benchmark makes no difference.
-/

namespace LlmSession

namespace BenchShape

/-- As numbers the places of the prompt are those from zero on, for as long as a word can hold
them. -/
theorem map_toInt_pos_promptSlots {s : BenchShape} (h : s.promptTokens ≤ twoTo 31) :
    s.promptSlots.map (fun slot => slot.pos.toInt) =
      (List.range s.promptTokens).map Int.ofNat := by
  refine List.ext_getElem (by simp [promptSlots]) fun i hi hi' => ?_
  have hlt : i < twoTo 31 := by
    rw [List.length_map, List.length_range] at hi'
    exact Nat.lt_of_lt_of_le hi' h
  simp only [promptSlots, List.getElem_map, List.getElem_range]
  exact Int32.toInt_ofNat_of_lt hlt

theorem toInt_pos_of_mem_stepSlots {s : BenchShape} {step : Nat} (h : step < twoTo 31)
    {slot : BatchSlot} (hslot : slot ∈ s.stepSlots step) : slot.pos.toInt = step := by
  obtain ⟨sequence, -, rfl⟩ := List.mem_map.1 hslot
  exact Int32.toInt_ofNat_of_lt h

end BenchShape

@[simp] theorem Turn.cursor_interrupt (t : Turn) : t.interrupt.cursor = t.cursor := by
  unfold interrupt; split <;> rfl

namespace Session

variable {E : Engine}

/-! ## A benchmark that runs -/

/-- **What a benchmark asks for, and what it answers.**  Each run empties the cache, makes one pass
over the prompt, empties the cache again, makes one pass for each step, and empties the cache once
more; where a pass fails the run goes on with the last of these.  Nothing else is asked for.  The
prompt stands in the first sequence and has one distribution, and a step has one slot in each of the
sequences, all at one position and each with a distribution.  The benchmark fails exactly if all
runs were cut, with the error of the last of them, and else its report says how many were.  Whatever
is staged finds room, each time, and at the end the cache holds nothing. -/
theorem exists_cuts_of_benchmark (cache : E.Cache) {s : Session E.recorded}
    {l : Loaded E.recorded} (hl : s.phase = .loaded l) {shape : BenchShape}
    (haccepted : shape.refusal? l.batch = none) :
    let prompt : List BatchSlot := (List.range shape.promptTokens).map fun i =>
      { token := ⟨0⟩, pos := Int32.ofNat i, seqIds := [0],
        logits := decide (i + 1 = shape.promptTokens) }
    let step : Nat → List BatchSlot := fun i => (List.range shape.sequences).map fun sequence =>
      { token := ⟨0⟩, pos := Int32.ofNat i, seqIds := [Int32.ofNat sequence], logits := true }
    let calls := runCalls prompt step shape.generationSteps
    let result := s.benchmark shape
    ∃ (l' : Loaded E.recorded) (cuts : List (Option BenchCut)), result.2.phase = .loaded l' ∧
      cuts.length = shape.runs ∧ (∀ cut ∈ cuts, ∀ c ∈ cut, c.IsOf shape) ∧
      E.recorded.Makes (cuts.flatMap calls) l.context s.world l'.context result.2.world ∧
      result.2.calls = s.calls ++ (cuts.flatMap calls).map ContextCall.call ∧
      (∀ e, result.1 = .error e ↔ (∀ cut ∈ cuts, cut.isSome = true) ∧
        ∃ cut, cuts.getLast? = some (some cut) ∧ e = .decodeFailed cut.error.failureDetail) ∧
      (∀ report, result.1 = .ok report → report.failedRuns = cuts.countP Option.isSome) ∧
      shape.Fits l.batch ∧ (∀ batch, shape.Fits batch →
        (∃ b, shape.stagePrompt batch = .ok b ∧ b.filled = prompt ∧ shape.Fits b) ∧
        ∀ i, ∃ b, batch.fill (step i) = .ok b ∧ b.filled = step i ∧ shape.Fits b) ∧
      (shape.promptTokens ≤ twoTo 31 → prompt.map (fun slot => slot.pos.toInt) =
        (List.range shape.promptTokens).map Int.ofNat) ∧
      (∀ i < twoTo 31, ∀ slot ∈ step i, slot.pos.toInt = i) ∧
      cache.records l'.context = [] := by
  intro prompt step calls result
  have hfits := BenchShape.refusal?_eq_none_iff.1 haccepted
  rcases hruns : E.recorded.benchmarkRuns shape shape.runs {} l.batch l.context s.world with
    ⟨tally, batch, context, w⟩
  have hresult : result = (tally.answer shape l.summary E.recorded.name, { s with
      world := w
      phase := .loaded { l with batch, context, turn := l.turn.map Turn.interrupt } }) := by
    show s.benchmark shape = _
    simp only [benchmark, hl, Engine.benchmark, haccepted, hruns]
  have hnone : ({} : BenchTally).Counts [] := ⟨rfl, by simp⟩
  obtain ⟨-, cuts, hlength, hofs, hcounts, hmakes⟩ :=
    Engine.makes_of_benchmarkRuns hfits hnone hruns
  have hprompt : shape.promptSlots = prompt := rfl
  have hstep : shape.stepSlots = step := rfl
  rw [hprompt, hstep] at hmakes
  rw [hresult]
  refine ⟨_, cuts, rfl, hlength, hofs, hmakes, hmakes.callsIn_eq,
    fun e => ?_,
    fun report => hcounts.failedRuns_eq, hfits,
    fun batch hbatch => ⟨BenchShape.exists_stagePrompt_eq_ok hbatch,
      BenchShape.exists_fill_stepSlots_eq_ok hbatch⟩,
    BenchShape.map_toInt_pos_promptSlots,
    fun i hi slot => BenchShape.toInt_pos_of_mem_stepSlots hi, ?_⟩
  · simp only [← SessionError.asDecodeFailure_eq]
    exact hcounts.answer_eq_error_iff hlength hfits.runs_pos
  -- the last run ends with an empty cache, and there is a last run
  have hne : cuts ≠ [] := List.length_pos_iff.1 (by rw [hlength]; exact hfits.runs_pos)
  obtain ⟨others, last, rfl⟩ := (List.eq_nil_or_concat cuts).resolve_left hne
  rw [List.concat_eq_append, List.flatMap_append, List.flatMap_singleton, runCalls,
    ← List.append_assoc] at hmakes
  exact hmakes.of_recorded.records_eq_nil cache

/-- Three runs with two sequences.  The first is cut at its second step, the second at its prompt,
and the third is not. -/
theorem exists_cuts_of_benchmark_of_two_failed_passes :
    let script : Script := { failDecode := [3, 4] }
    let s := (observed (E := script.engine) { context := { maxSequences := 2 } }
      ({} : Script.World)).after [.load "model"]
    let shape : BenchShape := { promptTokens := 3, generationSteps := 2, sequences := 2, runs := 3 }
    let prompt : List BatchSlot := [⟨⟨0⟩, 0, [0], false⟩, ⟨⟨0⟩, 1, [0], false⟩, ⟨⟨0⟩, 2, [0], true⟩]
    let step : Nat → List BatchSlot := fun i =>
      [⟨⟨0⟩, Int32.ofNat i, [0], true⟩, ⟨⟨0⟩, Int32.ofNat i, [1], true⟩]
    (s.benchmark shape).2.calls = s.calls ++ ([some (.step 1 (.decodeFailed "injected at call 3")),
      some (.prompt (.decodeFailed "injected at call 4")), none].flatMap
        (runCalls prompt step 2)).map ContextCall.call ∧
    ∃ (report : BenchReport) (cuts : List (Option BenchCut)),
      (s.benchmark shape).1 = .ok report ∧ report.failedRuns = 2 ∧
      (s.benchmark shape).2.calls =
        s.calls ++ (cuts.flatMap (runCalls prompt step 2)).map ContextCall.call ∧
      cuts.length = 3 ∧ cuts.countP Option.isSome = 2 := by
  intro script s shape prompt step
  have hbatch : s.loaded?.map (fun l => shape.refusal? l.batch) = some none := by decide +kernel
  obtain ⟨l, hloaded, haccepted⟩ := Option.map_eq_some_iff.1 hbatch
  have hfailed : (s.benchmark shape).1.toOption.map BenchReport.failedRuns = some 2 := by
    decide +kernel
  obtain ⟨report, hreport, hcount⟩ := Option.map_eq_some_iff.1 hfailed
  have hanswer : (s.benchmark shape).1 = .ok report := by
    cases h : (s.benchmark shape).1 with
    | error e => rw [h] at hreport; exact nomatch hreport
    | ok report' => rw [h] at hreport; exact congrArg Except.ok (Option.some.inj hreport)
  obtain ⟨l', cuts, -, hlength, -, -, hcalls, -, hcounts, -⟩ :=
    exists_cuts_of_benchmark (s := s) script.cache (phase_eq_of_loaded? hloaded) haccepted
  refine ⟨by decide +kernel, report, cuts, hanswer, hcount, hcalls, hlength, ?_⟩
  rw [← hcounts report hanswer, hcount]

/-! ## A benchmark that is refused -/

/-- What a refused benchmark leaves: all that there was, but with the turn interrupted. -/
theorem benchmark_of_refusal? {s : Session E} {l : Loaded E} (hl : s.phase = .loaded l)
    {shape : BenchShape} {e : SessionError} (hrefused : shape.refusal? l.batch = some e) :
    s.benchmark shape = (.error e,
      { s with phase := .loaded { l with turn := l.turn.map Turn.interrupt } }) := by
  simp only [benchmark, hl, Engine.benchmark, hrefused]

theorem map_interrupt_of_not_running {turn : Option Turn} (h : ∀ t ∈ turn, t.finished ≠ none) :
    turn.map Turn.interrupt = turn := by
  cases turn with
  | none => rfl
  | some t =>
    obtain ⟨reason, hf⟩ := Option.ne_none_iff_exists'.1 (h t rfl)
    rw [Option.map_some, Turn.interrupt_of_finished hf]

/-- **Steps do not interrupt a turn**, however many there are. -/
theorem finished_ne_interrupted_stepped {s : Session E} {t : Turn} (ht : s.turn? = some t)
    (hf : t.finished = none) (k : Nat) :
    ∀ t', (s.stepped k).turn? = some t' → t'.finished ≠ some .interrupted := by
  induction k with
  | zero =>
    intro t' ht'
    cases ht.symm.trans ht'
    rw [hf]
    exact nofun
  | succ k ih =>
    intro t' ht' hf'
    rw [stepped_succ] at ht'
    by_cases hrunning : ∃ t₁, (s.stepped k).turn? = some t₁ ∧ t₁.finished = none
    · obtain ⟨t₁, ht₁, hf₁⟩ := hrunning
      cases ((s.stepped k).performs .step).stops ht₁ hf₁ ht' hf' with
      | found _ hreason _ => exact hreason rfl
      | interrupted hop _ _ => exact hop.elim
    · have hsame : ((s.stepped k).perform .step).2 = s.stepped k := by
        refine (decodeStep_of_not_running fun stop t₁ => ?_).1
        rintro ⟨l, hl, -, hturn⟩ hf₁
        exact hrunning ⟨t₁, (turn?_of_loaded hl).trans hturn, hf₁⟩
      rw [hsame] at ht'
      exact ih t' ht' hf'

theorem not_endsWith_interrupted {s : Session E} {t : Turn} (ht : s.turn? = some t)
    (hf : t.finished = none) (k : Nat) :
    ¬ s.EndsWith (List.replicate k .step) .interrupted := by
  intro hends
  obtain ⟨-, t', ⟨l, hl, -, ht'⟩, hf'⟩ := exists_finished_of_endsWith hends
  exact finished_ne_interrupted_stepped ht hf k t' ((turn?_of_loaded hl).trans ht') hf'

/-- All that an interrupted turn has to give is the reason. -/
theorem fragments_and_endsWith_of_interrupted {s : Session E} {t : Turn} (ht : s.turn? = some t)
    (hf : t.finished = some .interrupted) (k : Nat) :
    s.fragments (List.replicate k .step) = [] ∧
      s.EndsWith (List.replicate (k + 1) .step) .interrupted := by
  have hkept : ∀ op ∈ List.replicate k Operation.step, ¬ op.GivesUpTurn := by
    intro op hop
    rw [List.eq_of_mem_replicate hop]
    exact id
  obtain ⟨hturn, hnone⟩ := turn?_after_of_finished ht hf hkept
  refine ⟨hnone, ?_⟩
  rw [endsWith_replicate_succ, stepped, perform, decodeStep_of_finished hturn hf]
  rfl

/-- **A refused benchmark interrupts the turn.**  It answers with the refusal and asks the engine
for nothing, and all it does is to interrupt a turn that is not over.  So the session is the same
exactly if no turn is going on, and exactly then it goes on as it would have without the benchmark.
A turn that is going on gives no text any more, however many steps there are, and its reason is
`interrupted`, which it would not have been. -/
theorem refused_benchmark_iff {s : Session E.recorded} {l : Loaded E.recorded}
    (hl : s.phase = .loaded l) {shape : BenchShape} {e : SessionError}
    (hrefused : shape.refusal? l.batch = some e) :
    let refused := (s.benchmark shape).2
    (s.benchmark shape).1 = .error e ∧ refused.calls = s.calls ∧ refused.cursor? = s.cursor? ∧
    refused = { s with phase := .loaded { l with turn := l.turn.map Turn.interrupt } } ∧
    (refused = s ↔ ∀ t, s.turn? = some t → t.finished ≠ none) ∧
    ((∀ ops, refused.answers ops = s.answers ops) ↔
      ∀ t, s.turn? = some t → t.finished ≠ none) ∧
    ∀ t, s.turn? = some t → t.finished = none → ∀ k,
      refused.fragments (List.replicate k .step) = [] ∧
      refused.EndsWith (List.replicate (k + 1) .step) .interrupted ∧
      ¬ s.EndsWith (List.replicate k .step) .interrupted := by
  intro refused
  have hbenchmark := benchmark_of_refusal? hl hrefused
  have hturn : refused.turn? = s.turn?.map Turn.interrupt := by
    show (s.benchmark shape).2.turn? = _
    rw [hbenchmark, turn?_of_loaded hl, turn?_of_loaded rfl]
  have hsame (h : ∀ t, s.turn? = some t → t.finished ≠ none) : refused = s := by
    show (s.benchmark shape).2 = s
    rw [turn?_of_loaded hl] at h
    rw [hbenchmark, map_interrupt_of_not_running h, ← hl]
  have hrunning : ∀ t, s.turn? = some t → t.finished = none → ∀ k,
      refused.fragments (List.replicate k .step) = [] ∧
      refused.EndsWith (List.replicate (k + 1) .step) .interrupted ∧
      ¬ s.EndsWith (List.replicate k .step) .interrupted := by
    intro t ht hf k
    rw [ht] at hturn
    obtain ⟨hnone, hends⟩ := fragments_and_endsWith_of_interrupted hturn
      (Turn.finished_interrupt_of_running hf) k
    exact ⟨hnone, hends, not_endsWith_interrupted ht hf k⟩
  have hanswers (h : ∀ ops, refused.answers ops = s.answers ops) :
      ∀ t, s.turn? = some t → t.finished ≠ none := by
    intro t ht hf
    -- one step tells the two apart
    obtain ⟨-, hends, -⟩ := hrunning t ht hf 0
    obtain ⟨-, -, hnot⟩ := hrunning t ht hf 1
    exact hnot (by rwa [EndsWith, ← h])
  refine ⟨by rw [hbenchmark], ?_, ?_, congrArg Prod.snd hbenchmark, ?_, ?_, hrunning⟩
  · show (s.benchmark shape).2.calls = _
    rw [hbenchmark]
    rfl
  · rw [cursor?, cursor?, hturn, Option.map_map]
    exact congrArg (s.turn?.map ·) (funext Turn.cursor_interrupt)
  · exact ⟨fun heq => hanswers fun ops => by rw [heq], hsame⟩
  · exact ⟨hanswers, fun h ops => by rw [hsame h]⟩

/-- A turn gave `h` and has `i` to come, when a benchmark of no tokens is asked for. -/
theorem refused_benchmark_iff_of_empty_prompt :
    let script : Script := { replies := [.ofByte 0x68, .ofByte 0x69] }
    let s := (observed (E := script.engine) {} ({} : Script.World)).after
      [.load "model", .prefill "q" false 8, .step]
    let shape : BenchShape := { promptTokens := 0, generationSteps := 1, sequences := 1, runs := 1 }
    let refused := (s.benchmark shape).2
    s.fragments [.step, .step] = ["i"] ∧ s.EndsWith [.step, .step] .endOfGeneration ∧
      refused.fragments [.step, .step] = [] ∧ refused.EndsWith [.step, .step] .interrupted ∧
      refused ≠ s ∧ refused.calls = s.calls := by
  intro script s shape refused
  have hrefusal : s.loaded?.map (fun l => (shape.refusal? l.batch).isSome) = some true := by
    decide +kernel
  obtain ⟨l, hloaded, hsome⟩ := Option.map_eq_some_iff.1 hrefusal
  obtain ⟨e, hrefused⟩ := Option.isSome_iff_exists.1 hsome
  have hover : s.turn?.map Turn.finished = some none := by decide +kernel
  obtain ⟨t, ht, hf⟩ := Option.map_eq_some_iff.1 hover
  obtain ⟨-, hcalls, -, -, hsame, -, hrunning⟩ :=
    refused_benchmark_iff (s := s) (phase_eq_of_loaded? hloaded) hrefused
  refine ⟨by decide +kernel, by decide +kernel, (hrunning t ht hf 2).1, (hrunning t ht hf 1).2.1,
    fun heq => hsame.1 heq t ht hf, hcalls⟩

end Session
end LlmSession
