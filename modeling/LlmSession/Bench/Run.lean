import LlmSession.Bench.Report
import LlmSession.Engine.Submit
import LlmSession.Session.Prefill

/-!
# Running a benchmark

One run processes a prompt in a single pass, and then generates: step by step, one token for
each sequence, all at the position of the step.  The cache is emptied before the prompt, once
that is staged, between the two, and after the run, however it went.

A run whose pass fails is over with that pass.  It counts as failed, and the speeds leave it
out.  Only if all runs fail is there no report, and the error is that of the last one.

## Main definitions

* `BenchShape.refusal?`: why a batch cannot hold a benchmark.
* `runBenchmark`: the benchmark.
-/

namespace LlmSession

namespace BenchShape

/-- Why a batch cannot hold a benchmark of this shape. -/
def refusal? (s : BenchShape) (batch : TokenBatch) : Option SessionError :=
  if s.promptTokens = 0 ∨ s.sequences = 0 ∨ s.runs = 0 then
    some (.invalidState "benchmark" ("given an empty shape " ++ s.describe))
  else if batch.capacity < s.promptTokens ∨ batch.capacity < s.sequences then
    some (.capacityExceeded batch.capacity)
  else if batch.maxSequences < s.sequences then
    some (.tooManySequences batch.maxSequences s.sequences)
  else none

/-- Stages the prompt of a run: token after token, none of which asks for a distribution, and then
the last of them does. -/
def stagePrompt (s : BenchShape) (batch : TokenBatch) : Except SessionError TokenBatch := do
  let batch ← batch.fill ((List.range s.promptTokens).map fun i => .ofToken ⟨0⟩ i false)
  batch.setLogits (s.promptTokens - 1) true

/-- The slots of one step of the generation: the same position in every sequence. -/
def stepSlots (s : BenchShape) (step : Nat) : List BatchSlot :=
  (List.range s.sequences).map fun sequence =>
    { token := ⟨0⟩, pos := Int32.ofNat step, seqIds := [Int32.ofNat sequence], logits := true }

end BenchShape

/-- The runs so far. -/
structure BenchTally where
  /-- The speeds of the prompts. -/
  prompt : SpeedSamples := {}
  /-- The speeds of the generation. -/
  generation : SpeedSamples := {}
  /-- The runs that failed. -/
  failed : Nat := 0
  /-- Why the last of them failed. -/
  lastError : Option SessionError := none

/-- The tally with one more run, which has the two speeds or an error. -/
def BenchTally.add (t : BenchTally) : Except SessionError (Float × Float) → BenchTally
  | .ok (prompt, generation) =>
    { t with prompt := t.prompt.push prompt, generation := t.generation.push generation }
  | .error e => { t with failed := t.failed + 1, lastError := some e }

/-- The report on all runs. -/
def BenchTally.report (t : BenchTally) (shape : BenchShape) (model : ModelSummary)
    (engine : String) : BenchReport where
  shape := shape
  model := model
  engine := engine
  promptMean := t.prompt.mean
  promptStdDev := t.prompt.stdDev
  generationMean := t.generation.mean
  generationStdDev := t.generation.stdDev
  failedRuns := t.failed

/-- The answer of a benchmark: its report, unless no run went well. -/
def BenchTally.answer (t : BenchTally) (shape : BenchShape) (model : ModelSummary)
    (engine : String) : Except SessionError BenchReport :=
  match t.lastError with
  | some e => if t.failed = shape.runs then .error e else .ok (t.report shape model engine)
  | none => .ok (t.report shape model engine)

namespace Engine

variable (E : Engine)

/-- The steps of a generation from step `step` on, up to the first that fails. -/
def generate (shape : BenchShape) (step : Nat) : (remaining : Nat) → TokenBatch → E.Context →
    E.World → Except SessionError Unit × TokenBatch × E.Context × E.World
  | 0, batch, context, w => (.ok (), batch, context, w)
  | remaining + 1, batch, context, w =>
    match E.submitSlots (shape.stepSlots step) batch context w with
    | (.error e, batch, context, w) => (.error e, batch, context, w)
    | (.ok (), batch, context, w) => generate shape (step + 1) remaining batch context w

/-- One run, which gives the speeds of the prompt and of the generation. -/
def benchmarkOnce (shape : BenchShape) (batch : TokenBatch) (context : E.Context)
    (w : E.World) : Except SessionError (Float × Float) × TokenBatch × E.Context × E.World :=
  match shape.stagePrompt batch with
  | .error e => (.error e, batch, context, w)
  | .ok batch =>
    let (context, w) := E.clearMemory false context w
    let promptStart := E.clock w
    match E.submit batch context w with
    | (.error e, context, w) => (.error e, batch, context, w)
    | (.ok (), context, w) =>
      let promptStop := E.clock w
      let (context, w) := E.clearMemory false context w
      let generationStart := E.clock w
      match E.generate shape 0 shape.generationSteps batch context w with
      | (.error e, batch, context, w) => (.error e, batch, context, w)
      | (.ok (), batch, context, w) =>
        (.ok (speedBetween shape.promptTokens promptStart promptStop,
          speedBetween (shape.sequences * shape.generationSteps) generationStart (E.clock w)),
          batch, context, w)

/-- So many runs one after the other, each with an empty cache after it. -/
def benchmarkRuns (shape : BenchShape) : (runs : Nat) → BenchTally → TokenBatch → E.Context →
    E.World → BenchTally × TokenBatch × E.Context × E.World
  | 0, tally, batch, context, w => (tally, batch, context, w)
  | runs + 1, tally, batch, context, w =>
    let (outcome, batch, context, w) := E.benchmarkOnce shape batch context w
    let (context, w) := E.clearMemory false context w
    benchmarkRuns shape runs (tally.add outcome) batch context w

/-- The benchmark, on a batch that may refuse its shape before anything runs. -/
def benchmark (shape : BenchShape) (model : ModelSummary) (batch : TokenBatch)
    (context : E.Context) (w : E.World) :
    Except SessionError BenchReport × TokenBatch × E.Context × E.World :=
  match shape.refusal? batch with
  | some e => (.error e, batch, context, w)
  | none =>
    let (tally, batch, context, w) := E.benchmarkRuns shape shape.runs {} batch context w
    (tally.answer shape model E.name, batch, context, w)

end Engine

/-- Runs a benchmark on the session's own context and batch.  A turn that is not over ends
with that. -/
def Session.benchmark {E : Engine} (s : Session E) (shape : BenchShape) :
    Except SessionError BenchReport × Session E :=
  match s.phase with
  | .loaded l =>
    let (outcome, batch, context, world) :=
      E.benchmark shape l.summary l.batch l.context s.world
    (outcome, { s with
      world, phase := .loaded { l with batch, context, turn := l.turn.map Turn.interrupt } })
  | _ => (.error (s.refusal "benchmark"), s)

end LlmSession
