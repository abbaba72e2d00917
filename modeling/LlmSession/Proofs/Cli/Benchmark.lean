import LlmSession.Cli.Program
import LlmSession.Proofs.Batch.Staging
import LlmSession.Proofs.Session.Benchmark
import LlmSession.Proofs.Session.Reloads

/-!
# Benchmarks from the command line

A step of a benchmark continues several sequences at once, and a batch keeps a fixed number of them
apart.  So the command raises that number in the settings to what the benchmark asks for, before a
worker is started with them.

## Numbers that do not fit a word

What is asked for has 64 bits, and what is raised has 32; the upper half is lost on the way.  The
settings may then say less than the benchmark needs, down to a single sequence.  Yet it is never
refused for want of sequences.  The capacity of a batch is a word as well, and a benchmark needs a
slot for each of its sequences; so a number of which something was lost is more than any capacity,
and slots are counted before sequences are.

## Main statements

* `BenchShape.refusal?_of_capacity_lt`: a benchmark with more sequences than there are slots.
* `Command.sequences_le_maxSequences`: what the raised settings are enough for.
* `Session.benchmark_eq_error`: the errors of a benchmark.
* `bench_never_lacks_sequences`: the command.
-/

namespace LlmSession

/-! ## The order of the checks -/

namespace BenchShape

variable {s : BenchShape} {batch : TokenBatch}

/-- With more sequences than slots, a benchmark is refused before sequences are counted. -/
theorem refusal?_of_capacity_lt (h : batch.capacity < s.sequences) :
    s.refusal? batch = some (if s.promptTokens = 0 ∨ s.runs = 0 then
        .invalidState "benchmark" ("given an empty shape " ++ s.describe)
      else .capacityExceeded batch.capacity) := by
  have hempty : (s.promptTokens = 0 ∨ s.sequences = 0 ∨ s.runs = 0) ↔
      s.promptTokens = 0 ∨ s.runs = 0 := by omega
  rw [refusal?, if_pos (show batch.capacity < s.promptTokens ∨ batch.capacity < s.sequences from
    Or.inr h)]
  simp only [hempty]
  split_ifs <;> rfl

/-- Sequences are missed only if there are slots for them. -/
theorem refusal?_ne_tooManySequences
    (h : s.sequences ≤ batch.capacity → s.sequences ≤ batch.maxSequences) (most got : Nat) :
    s.refusal? batch ≠ some (.tooManySequences most got) := by
  by_cases hcapacity : batch.capacity < s.sequences
  · rw [refusal?_of_capacity_lt hcapacity]
    split_ifs <;> exact nofun
  · have hle := h (Nat.not_lt.1 hcapacity)
    unfold refusal?
    rw [if_neg (show ¬ batch.maxSequences < s.sequences by omega)]
    split_ifs <;> exact nofun

end BenchShape

/-- **Raised settings** are enough for the sequences if the capacity is.  Only a number past the
greatest word is cut when the settings are raised to it, and no capacity is as great as that. -/
theorem Cli.Command.sequences_le_maxSequences (model : String) (shape : BenchShape)
    (s : SessionSettings) (h : shape.sequences ≤ s.batchCapacity.toNat) :
    shape.sequences ≤ ((Command.bench model shape).settings s).maxSequences.toNat := by
  have hword : shape.sequences < UInt32.size := Nat.lt_of_le_of_lt h s.batchCapacity.toNat_lt
  show shape.sequences ≤ (max s.maxSequences (UInt32.ofNat shape.sequences)).toNat
  rw [UInt32.toNat_max, UInt32.toNat_ofNat_of_lt' hword]
  omega

/-! ## What a session does -/

namespace Session

variable {E : Engine} {s : Session E} {l : Loaded E}

/-- What a load leaves. -/
theorem exists_isNew_of_load {path : String} {summary : ModelSummary}
    (h : (s.load path).1 = .ok summary) :
    ∃ l, (s.load path).2.phase = .loaded l ∧ l.IsNew s.options := by
  have hp := s.performs (.load path)
  rw [perform, h] at hp
  generalize (s.load path).2 = s' at hp ⊢
  cases hp with
  | loaded _ ha =>
    cases ha with
    | had hm hc hb => exact ⟨_, rfl, rfl, hb, rfl, rfl⟩

/-- **A benchmark fails** because it is refused, or because a pass does. -/
theorem benchmark_eq_error (hl : s.phase = .loaded l) {shape : BenchShape} {e : SessionError}
    (h : (s.benchmark shape).1 = .error e) :
    shape.refusal? l.batch = some e ∨ e.IsDecodeFailure := by
  cases hrefusal : shape.refusal? l.batch with
  | some e' =>
    rw [benchmark_of_refusal? hl hrefusal] at h
    exact Or.inl (congrArg some (Except.error.inj h))
  | none =>
    have hfits := BenchShape.refusal?_eq_none_iff.1 hrefusal
    rcases hruns : E.benchmarkRuns shape shape.runs {} l.batch l.context s.world with
      ⟨tally, batch, context, w⟩
    have hanswer : tally.answer shape l.summary E.name = .error e := by
      rw [← h]
      simp only [benchmark, hl, Engine.benchmark, hrefusal, hruns]
    have hnone : ({} : BenchTally).Counts [] := ⟨rfl, by simp⟩
    obtain ⟨-, cuts, hlength, -, hcounts, -⟩ := Engine.makes_of_benchmarkRuns hfits hnone hruns
    obtain ⟨-, cut, -, rfl⟩ := (hcounts.answer_eq_error_iff hlength hfits.runs_pos).1 hanswer
    exact Or.inr (SessionError.isDecodeFailure_asDecodeFailure cut.error)

/-- A benchmark that is refused where there is no turn leaves everything as it is. -/
theorem benchmark_of_refusal?_of_no_turn (hl : s.phase = .loaded l) (hturn : l.turn = none)
    {shape : BenchShape} {e : SessionError} (h : shape.refusal? l.batch = some e) :
    s.benchmark shape = (.error e, s) := by
  rw [benchmark_of_refusal? hl h, map_interrupt_of_not_running (by rw [hturn]; exact nofun), ← hl]

end Session

/-! ## The command -/

namespace Cli

/-- What a command starts from. -/
theorem Invocation.exists_of_start {E : Engine} {i : Invocation} {fileAt : String → FileState}
    {own : FileState} {start : Except SessionError E.World} {settings : SessionSettings}
    {worker : Worker E} (h : i.start fileAt own start = .ok (settings, worker)) :
    ∃ s world, i.overrides.settings fileAt own = .ok s ∧ settings = i.command.settings s ∧
      worker = .start world settings.sessionOptions settings.turnDefaults := by
  unfold Invocation.start at h
  split at h
  · exact nomatch h
  · next s hs =>
    dsimp only at h
    split at h
    · exact nomatch h
    · cases h
      exact ⟨s, _, hs, rfl, rfl⟩

/-- **A benchmark never lacks sequences.**  Take any settings and any shape, and a model that is
loaded for it.  If there are slots for all the sequences that are asked for, the batch keeps as many
apart.  If there are not, be it that the number does not even fit a word, the benchmark is refused,
as an empty shape or for want of slots.  Nothing has changed then, and for an engine under
observation this goes for its transcript, too: there was no pass.  Either way the error is none
about sequences, and it is with the error of the benchmark, or with its report, that the program
ends. -/
theorem bench_never_lacks_sequences {E : Engine} {i : Invocation} {model : String}
    {shape : BenchShape} {fileAt : String → FileState} {own : FileState}
    {start : Except SessionError E.World} {settings : SessionSettings} {worker worker' : Worker E}
    {summary : ModelSummary} (hcommand : i.command = .bench model shape)
    (hstart : i.start fileAt own start = .ok (settings, worker))
    (hload : worker.loadModel model = (.ok summary, worker')) (input : List UInt8) :
    ∃ l, worker'.session.phase = .loaded l ∧ l.batch.capacity = settings.batchCapacity.toNat ∧
      (shape.sequences ≤ l.batch.capacity → shape.sequences ≤ l.batch.maxSequences) ∧
      (l.batch.capacity < shape.sequences → worker'.benchmark shape =
        (.error (if shape.promptTokens = 0 ∨ shape.runs = 0 then
            .invalidState "benchmark" ("given an empty shape " ++ shape.describe)
          else .capacityExceeded l.batch.capacity), worker')) ∧
      (∀ most got, (worker'.benchmark shape).1 ≠ .error (.tooManySequences most got)) ∧
      (∀ e w, worker'.benchmark shape = (.error e, w) →
        i.execute fileAt own start input = .failure [] e.message (some w.session.world)) ∧
      ∀ report w, worker'.benchmark shape = (.ok report, w) →
        i.execute fileAt own start input = .success [.out report.text] w := by
  obtain ⟨s, world, -, hsettings, hworker⟩ := Invocation.exists_of_start hstart
  obtain ⟨hanswer, hsession⟩ : (worker.session.load model).1 = .ok summary ∧
      (worker.session.load model).2 = worker'.session :=
    ⟨congrArg Prod.fst hload, congrArg (·.2.session) hload⟩
  obtain ⟨l, hl, hnew⟩ := Session.exists_isNew_of_load hanswer
  rw [hsession] at hl
  have hbatch := TokenBatch.shows_of_allocate hnew.batch_eq
  have hcapacity : l.batch.capacity = settings.batchCapacity.toNat := by
    rw [hbatch.capacity_eq, hworker]
    rfl
  have hsequences : l.batch.maxSequences = settings.maxSequences.toNat := by
    rw [hbatch.maxSequences_eq, hworker]
    rfl
  have henough : shape.sequences ≤ l.batch.capacity → shape.sequences ≤ l.batch.maxSequences := by
    rw [hcapacity, hsequences, hsettings, hcommand]
    exact Command.sequences_le_maxSequences model shape s
  refine ⟨l, hl, hcapacity, henough, fun hlt => ?_, fun most got hmany => ?_,
    fun e w hbenchmark => ?_, fun report w hbenchmark => ?_⟩
  · have hrefused := Session.benchmark_of_refusal?_of_no_turn hl hnew.turn_eq
      (BenchShape.refusal?_of_capacity_lt hlt)
    rw [Worker.benchmark, Worker.withSession, hrefused]
  · rcases Session.benchmark_eq_error hl hmany with hrefused | ⟨detail, hfailure⟩
    · exact BenchShape.refusal?_ne_tooManySequences henough most got hrefused
    · cases hfailure
  · simp only [Invocation.execute, hstart, hcommand, Command.execute, executeBench, hload,
      hbenchmark]
  · simp only [Invocation.execute, hstart, hcommand, Command.execute, executeBench, hload,
      hbenchmark]

/-- The first number leaves one when it is cut, and the context is asked for with one sequence; but
there are 512 slots, and that is the error.  For the second the settings are raised. -/
theorem bench_never_lacks_sequences_of_cut_number :
    let engine := ({} : Script).engine.recorded
    let start : Except SessionError engine.World := .ok (({} : Script.World), #[])
    let bench (sequences : Nat) : Invocation := {
      overrides := {}
      command := .bench "model" { promptTokens := 1, generationSteps := 1, sequences, runs := 1 } }
    let result (sequences : Nat) := (bench sequences).execute (fun _ => .missing) .missing start []
    (result (twoTo 32 + 1)).outputs = [errorLine (SessionError.capacityExceeded 512).message] ∧
    (result (twoTo 32 + 1)).world.map Engine.callsIn =
      some [.loadModel "model" 0 true, .newContext { maxSequences := 1 } true, .newSampler {}] ∧
    (result 2).code = 0 := by
  intro engine start bench result
  let settings (sequences : Nat) : SessionSettings :=
    (bench sequences).command.settings (({} : Overrides).apply {}).validate
  let worker (sequences : Nat) : Worker engine := .start (({} : Script.World), #[])
    (settings sequences).sessionOptions (settings sequences).turnDefaults
  have hstart (sequences : Nat) : (bench sequences).start (fun _ => .missing) .missing start =
      .ok (settings sequences, worker sequences) := rfl
  have hload := Prod.fst_eq_iff.1 (show ((worker (twoTo 32 + 1)).loadModel "model").1 =
    .ok (Script.summary "model") by decide +kernel)
  obtain ⟨l, -, hcapacity, -, hrefused, -, hfailure, -⟩ :=
    bench_never_lacks_sequences rfl (hstart (twoTo 32 + 1)) hload []
  have hslots : l.batch.capacity = 512 := hcapacity.trans (by decide +kernel)
  have hresult := hfailure _ _ (hrefused (by rw [hslots]; decide))
  rw [hslots] at hresult
  exact ⟨congrArg Result.outputs hresult, by decide +kernel, by decide +kernel⟩

end Cli
end LlmSession
