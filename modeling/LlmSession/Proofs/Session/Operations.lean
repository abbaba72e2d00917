import LlmSession.Proofs.Engine.Prompt
import LlmSession.Proofs.Session.Run

/-!
# All that an operation can do

`Loaded.Steps` says what one step of a turn can do.  Here the same is said of the beginning of a
turn and of the parts of a loaded session, and then of every operation of a session: one
constructor for each way it can go, with the answer and all that it leaves behind.
`Session.performs` says that there are no others.

A property that holds along every run is then proved by cases on what happened, and no proof
elsewhere looks into `Session.perform`.

## Refusals

An operation that makes no sense in the present state is refused.  There are four ways to be
refused (`notIdle`, `notLoaded`, `noTurn`, `replaced`), and they are kept apart from the ways to
fail, because a failure may leave much behind and a refusal leaves nothing.

## Main definitions

* `Loaded.Prefills`, `Loaded.prefills`: the beginning of a turn.
* `Session.Allocates`, `Session.allocates`: the parts that a model needs.
* `Session.Performs`, `Session.performs`: an operation.
-/

namespace LlmSession

/-! ## The beginning of a turn -/

namespace Loaded

variable {E : Engine}

/-- Makes the set of tokens that end a reply, if it is not there yet. -/
def prepareStop (l : Loaded E) (w : E.World) : Except SessionError StopConditions × E.World :=
  l.stop.prepare (fun text => E.tokenize l.context text false true) w

/-- The six ways to begin a turn, of which one succeeds.  The turn before it is over in all of
them. -/
inductive Prefills (l : Loaded E) (rejectLongPrompts : Bool) (id : Nat) (prompt : String)
    (parseControl : Bool) (maxNewTokens : Nat) (w : E.World) :
    Except SessionError PrefillReport × Loaded E × E.World → Prop where
  /-- The set of tokens that end a reply cannot be made. -/
  | unprepared {e : SessionError} {w₁ : E.World} (hstop : l.prepareStop w = (.error e, w₁)) :
    Prefills l rejectLongPrompts id prompt parseControl maxNewTokens w
      (.error e, { l with turn := none }, w₁)
  /-- The prompt cannot be read. -/
  | unread {stop : StopConditions} {e : SessionError} {w₁ w₂ : E.World}
    (hstop : l.prepareStop w = (.ok stop, w₁))
    (htokens : E.tokenize l.context prompt true parseControl w₁ = (.error e, w₂)) :
    Prefills l rejectLongPrompts id prompt parseControl maxNewTokens w
      (.error e, { l with stop, turn := none }, w₂)
  /-- The prompt has no tokens. -/
  | empty {stop : StopConditions} {w₁ w₂ : E.World}
    (hstop : l.prepareStop w = (.ok stop, w₁))
    (htokens : E.tokenize l.context prompt true parseControl w₁ = (.ok [], w₂)) :
    Prefills l rejectLongPrompts id prompt parseControl maxNewTokens w
      (.error (.tokenization "prompt produced no tokens"), { l with stop, turn := none }, w₂)
  /-- The turn needs more places than a word can say, or than there are, and is not tried. -/
  | refused {stop : StopConditions} {tokens : List Token} {report : PrefillReport}
    {e : SessionError} {w₁ w₂ : E.World} (hstop : l.prepareStop w = (.ok stop, w₁))
    (htokens : E.tokenize l.context prompt true parseControl w₁ = (.ok tokens, w₂))
    (hne : tokens ≠ [])
    (hreport : report = .ofCounts id tokens.length maxNewTokens (E.contextSize l.context).toNat)
    (hrefused : report.refusal? rejectLongPrompts = some e) :
    Prefills l rejectLongPrompts id prompt parseControl maxNewTokens w
      (.error e, { l with stop, turn := none }, w₂)
  /-- A pass over the prompt fails. -/
  | lost {stop : StopConditions} {tokens : List Token} {report : PrefillReport} {e : SessionError}
    {batch : TokenBatch} {context : E.Context} {w₁ w₂ w₃ : E.World}
    (hstop : l.prepareStop w = (.ok stop, w₁))
    (htokens : E.tokenize l.context prompt true parseControl w₁ = (.ok tokens, w₂))
    (hne : tokens ≠ [])
    (hreport : report = .ofCounts id tokens.length maxNewTokens (E.contextSize l.context).toNat)
    (htried : report.refusal? rejectLongPrompts = none)
    (hpasses : E.submitAll (chunks l.batch.capacity (promptSlots tokens)) l.batch l.context w₂ =
      (.error e, batch, context, w₃)) :
    Prefills l rejectLongPrompts id prompt parseControl maxNewTokens w
      (.error e, { l with stop, batch, context, turn := none }, w₃)
  /-- The prompt is in the cache. -/
  | begun {stop : StopConditions} {tokens : List Token} {report : PrefillReport}
    {batch : TokenBatch} {context : E.Context} {w₁ w₂ w₃ : E.World}
    (hstop : l.prepareStop w = (.ok stop, w₁))
    (htokens : E.tokenize l.context prompt true parseControl w₁ = (.ok tokens, w₂))
    (hne : tokens ≠ [])
    (hreport : report = .ofCounts id tokens.length maxNewTokens (E.contextSize l.context).toNat)
    (htried : report.refusal? rejectLongPrompts = none)
    (hpasses : E.submitAll (chunks l.batch.capacity (promptSlots tokens)) l.batch l.context w₂ =
      (.ok (), batch, context, w₃)) :
    Prefills l rejectLongPrompts id prompt parseControl maxNewTokens w
      (.ok report, { l with
        stop, batch, context, turn := some (.start id tokens.length maxNewTokens) }, w₃)

/-- **A turn begins in one of the six ways.** -/
theorem prefills (l : Loaded E) (rejectLongPrompts : Bool) (id : Nat) (prompt : String)
    (parseControl : Bool) (maxNewTokens : Nat) (w : E.World) :
    l.Prefills rejectLongPrompts id prompt parseControl maxNewTokens w
      (l.prefill rejectLongPrompts id prompt parseControl maxNewTokens w) := by
  rcases hstop : l.prepareStop w with ⟨e | stop, w₁⟩
  · have hprepare : l.stop.prepare (fun text => E.tokenize l.context text false true) w =
        (.error e, w₁) := hstop
    simp only [prefill, hprepare]
    exact .unprepared hstop
  have hprepare : l.stop.prepare (fun text => E.tokenize l.context text false true) w =
      (.ok stop, w₁) := hstop
  rcases htokens : E.tokenize l.context prompt true parseControl w₁ with ⟨e | tokens, w₂⟩
  · simp only [prefill, hprepare, htokens]
    exact .unread hstop htokens
  simp only [prefill, hprepare, htokens]
  split
  · next hempty =>
    rw [List.isEmpty_iff.1 hempty] at htokens
    exact .empty hstop htokens
  next hne =>
  rw [List.isEmpty_iff] at hne
  cases hrefusal : (PrefillReport.ofCounts id tokens.length maxNewTokens
    (E.contextSize l.context).toNat).refusal? rejectLongPrompts with
  | some e => exact .refused hstop htokens hne rfl hrefusal
  | none =>
    rw [Engine.submitPrompt_eq]
    rcases hpasses : E.submitAll (chunks l.batch.capacity (promptSlots tokens)) l.batch l.context
      w₂ with ⟨e | _, batch, context, w₃⟩
    · exact .lost hstop htokens hne rfl hrefusal hpasses
    · exact .begun hstop htokens hne rfl hrefusal hpasses

end Loaded

/-! ## The parts of a loaded session -/

namespace Session

variable {E : Engine}

/-- The four ways to ask for what a model needs, of which one succeeds. -/
inductive Allocates (options : SessionOptions) (path : String) (w : E.World) :
    Except SessionError (Loaded E) × E.World → Prop where
  /-- The model cannot be had. -/
  | noModel {e : SessionError} {w₁ : E.World}
    (hm : E.loadModel path options.gpuLayers w = (.error e, w₁)) :
    Allocates options path w (.error e, w₁)
  /-- Its context cannot be had. -/
  | noContext {model : E.Model} {e : SessionError} {w₁ w₂ : E.World}
    (hm : E.loadModel path options.gpuLayers w = (.ok model, w₁))
    (hc : E.newContext model options.context w₁ = (.error e, w₂)) :
    Allocates options path w (.error e, w₂)
  /-- There is no room for a batch. -/
  | noBatch {model : E.Model} {context : E.Context} {e : SessionError} {w₁ w₂ : E.World}
    (hm : E.loadModel path options.gpuLayers w = (.ok model, w₁))
    (hc : E.newContext model options.context w₁ = (.ok context, w₂))
    (hb : TokenBatch.allocate options.context.batchCapacity.toNat 0
      options.context.maxSequences.toNat = .error e) :
    Allocates options path w (.error e, w₂)
  /-- All parts are there. -/
  | had {model : E.Model} {context : E.Context} {batch : TokenBatch} {w₁ w₂ : E.World}
    (hm : E.loadModel path options.gpuLayers w = (.ok model, w₁))
    (hc : E.newContext model options.context w₁ = (.ok context, w₂))
    (hb : TokenBatch.allocate options.context.batchCapacity.toNat 0
      options.context.maxSequences.toNat = .ok batch) :
    Allocates options path w (.ok {
      model, context, batch
      sampler := (E.newSampler options.sampler w₂).1
      summary := E.describe model
      config := options.context
      stop := options.stopConditions }, (E.newSampler options.sampler w₂).2)

theorem allocates (options : SessionOptions) (path : String) (w : E.World) :
    Allocates options path w (allocate options path w) := by
  rcases hm : E.loadModel path options.gpuLayers w with ⟨e | model, w₁⟩
  · simp only [allocate, hm]
    exact .noModel hm
  rcases hc : E.newContext model options.context w₁ with ⟨e | context, w₂⟩
  · simp only [allocate, hm, hc]
    exact .noContext hm hc
  cases hb : TokenBatch.allocate options.context.batchCapacity.toNat 0
    options.context.maxSequences.toNat with
  | error e =>
    simp only [allocate, hm, hc, hb]
    exact .noBatch hm hc hb
  | ok batch =>
    simp only [allocate, hm, hc, hb]
    exact .had hm hc hb

end Session

/-! ## Operations -/

/-- What an operation that needs a model calls itself when there is none. -/
def Operation.needsModel : Operation → Option String
  | .reload _ _ => some "reload the context"
  | .prefill _ _ _ => some "prefill"
  | .step => some "decode"
  | .clearCache _ => some "clear the cache"
  | .benchmark _ => some "benchmark"
  | .load _ => none
  | .stepFor _ => none
  | .unload => none

namespace Session

variable {E : Engine}

theorem turnId?_of_loaded {s : Session E} {l : Loaded E} (hl : s.phase = .loaded l) :
    s.turnId? = l.turn.map Turn.id := by
  simp only [turnId?, turn?, loaded?, hl, Option.bind_some]

/-- The ways of an operation. -/
inductive Performs (s : Session E) :
    Operation → Except SessionError Answer × Session E → Prop where
  /-- There is a model already. -/
  | notIdle {path : String} (h : s.phase ≠ .idle) :
    Performs s (.load path) (.error (s.refusal "load"), s)
  /-- There is no model with a context. -/
  | notLoaded {op : Operation} {name : String} (hname : op.needsModel = some name)
    (h : ∀ l, s.phase ≠ .loaded l) : Performs s op (.error (s.refusal name), s)
  /-- There is no turn. -/
  | noTurn {l : Loaded E} (hl : s.phase = .loaded l) (ht : l.turn = none) :
    Performs s .step (.error (.invalidState "decode" "no turn has been prefilled"), s)
  /-- Another turn has begun. -/
  | replaced {id current : Nat} (hcurrent : s.turnId? = some current) (hne : current ≠ id) :
    Performs s (.stepFor id) (.error (.invalidState "continue a replaced turn"
      ("turn " ++ toString id ++ " was replaced by turn " ++ toString current)), s)
  /-- A part of what is needed for a model cannot be had. -/
  | loadFailed {path : String} {e : SessionError} {w : E.World} (h : s.phase = .idle)
    (ha : Allocates s.options path s.world (.error e, w)) :
    Performs s (.load path) (.error e, { s with world := w })
  /-- The model is there. -/
  | loaded {path : String} {l : Loaded E} {w : E.World} (h : s.phase = .idle)
    (ha : Allocates s.options path s.world (.ok l, w)) :
    Performs s (.load path) (.ok (.loaded l.summary), { s with world := w, phase := .loaded l })
  /-- The new context cannot be had. -/
  | faulted {l : Loaded E} {threads contextSize : Option UInt32} {e : SessionError} {w : E.World}
    (hl : s.phase = .loaded l)
    (hc : E.newContext l.model (reconfigure l.config threads contextSize) s.world = (.error e, w)) :
    Performs s (.reload threads contextSize)
      (.error e, { s with world := w, phase := .faulted l.model e.message })
  /-- The new context is there. -/
  | reloaded {l : Loaded E} {threads contextSize : Option UInt32} {context : E.Context}
    {w : E.World} (hl : s.phase = .loaded l)
    (hc : E.newContext l.model (reconfigure l.config threads contextSize) s.world =
      (.ok context, w)) :
    Performs s (.reload threads contextSize) (.ok .done, { s with
      world := w
      phase := .loaded { l with
        config := reconfigure l.config threads contextSize
        context, turn := none, stop := s.options.stopConditions } })
  /-- No turn begins. -/
  | notBegun {l l' : Loaded E} {prompt : String} {parseControl : Bool} {maxNewTokens : Nat}
    {e : SessionError} {w : E.World} (hl : s.phase = .loaded l)
    (hp : l.Prefills s.options.rejectLongPrompts s.nextTurnId prompt parseControl maxNewTokens
      s.world (.error e, l', w)) :
    Performs s (.prefill prompt parseControl maxNewTokens)
      (.error e, { s with world := w, phase := .loaded l' })
  /-- A turn begins, and takes the number that was next. -/
  | begun {l l' : Loaded E} {prompt : String} {parseControl : Bool} {maxNewTokens : Nat}
    {report : PrefillReport} {w : E.World} (hl : s.phase = .loaded l)
    (hp : l.Prefills s.options.rejectLongPrompts s.nextTurnId prompt parseControl maxNewTokens
      s.world (.ok report, l', w)) :
    Performs s (.prefill prompt parseControl maxNewTokens) (.ok (.begun report),
      { s with world := w, phase := .loaded l', nextTurnId := s.nextTurnId + 1 })
  /-- The turn is over already. -/
  | finished {l : Loaded E} {t : Turn} {reason : StopReason} (hl : s.phase = .loaded l)
    (ht : l.turn = some t) (hf : t.finished = some reason) :
    Performs s .step (.ok (.stepped (.endOfStream reason)), s)
  /-- The turn takes a step. -/
  | stepped {l l' : Loaded E} {t : Turn} {outcome : Except SessionError Step} {w : E.World}
    (hl : s.phase = .loaded l) (ht : l.turn = some t) (hf : t.finished = none)
    (hstep : l.Steps s.options.lengthLimit t s.world (outcome, l', w)) :
    Performs s .step (outcome.map .stepped, { s with world := w, phase := .loaded l' })
  /-- A step of a given turn is a step, as long as no other turn is there. -/
  | stepFor {id : Nat} {result : Except SessionError Answer × Session E}
    (hid : ∀ current, s.turnId? = some current → current = id) (h : Performs s .step result) :
    Performs s (.stepFor id) result
  /-- The cache is emptied. -/
  | cleared {l : Loaded E} {full : Bool} {context : E.Context} {w : E.World}
    (hl : s.phase = .loaded l) (hc : E.clearMemory full l.context s.world = (context, w)) :
    Performs s (.clearCache full) (.ok .done, { s with
      world := w, phase := .loaded { l with context, turn := l.turn.map Turn.interrupt } })
  /-- The benchmark has come to an answer. -/
  | measured {l : Loaded E} {shape : BenchShape} {outcome : Except SessionError BenchReport}
    {batch : TokenBatch} {context : E.Context} {w : E.World} (hl : s.phase = .loaded l)
    (hb : E.benchmark shape l.summary l.batch l.context s.world = (outcome, batch, context, w)) :
    Performs s (.benchmark shape) (outcome.map .measured, { s with
      world := w
      phase := .loaded { l with batch, context, turn := l.turn.map Turn.interrupt } })
  /-- All is given up. -/
  | unloaded : Performs s .unload (.ok .done, s.unload)

/-- Without a loaded model, an operation that needs one is refused. -/
theorem perform_of_not_loaded {s : Session E} {op : Operation} {name : String}
    (hname : op.needsModel = some name) (h : ∀ l, s.phase ≠ .loaded l) :
    s.perform op = (.error (s.refusal name), s) := by
  cases hphase : s.phase with
  | loaded l => exact absurd hphase (h l)
  | _ =>
    cases op with
    | reload threads contextSize => cases hname; simp only [perform, reload, hphase]; rfl
    | prefill prompt parseControl maxNewTokens =>
      cases hname; simp only [perform, prefill, hphase]; rfl
    | step => cases hname; simp only [perform, decodeStep, hphase]; rfl
    | clearCache full => cases hname; simp only [perform, clearCache, hphase]; rfl
    | benchmark shape => cases hname; simp only [perform, benchmark, hphase]; rfl
    | load path => cases hname
    | stepFor id => cases hname
    | unload => cases hname

theorem performs_of_needsModel {s : Session E} {op : Operation} {name : String}
    (hname : op.needsModel = some name)
    (hloaded : ∀ l, s.phase = .loaded l → s.Performs op (s.perform op)) :
    s.Performs op (s.perform op) := by
  by_cases h : ∃ l, s.phase = .loaded l
  · obtain ⟨l, hl⟩ := h
    exact hloaded l hl
  · rw [not_exists] at h
    rw [perform_of_not_loaded hname h]
    exact .notLoaded hname h

theorem performs_load (s : Session E) (path : String) :
    s.Performs (.load path) (s.perform (.load path)) := by
  cases hphase : s.phase with
  | idle =>
    have hall := allocates s.options path s.world
    rcases ha : allocate s.options path s.world with ⟨e | l, w⟩
    · rw [ha] at hall
      have hload : s.load path = (.error e, { s with world := w }) := by
        simp only [load, hphase, ha]
      rw [perform, hload]
      exact .loadFailed hphase hall
    · rw [ha] at hall
      simp only [perform, load, hphase, ha]
      exact .loaded hphase hall
  | loaded l =>
    simp only [perform, load, hphase]
    exact .notIdle (by simp [hphase])
  | faulted model reason =>
    simp only [perform, load, hphase]
    exact .notIdle (by simp [hphase])

theorem performs_reload {s : Session E} {l : Loaded E} (hl : s.phase = .loaded l)
    (threads contextSize : Option UInt32) :
    s.Performs (.reload threads contextSize) (s.perform (.reload threads contextSize)) := by
  rcases hc : E.newContext l.model (reconfigure l.config threads contextSize) s.world with
    ⟨e | context, w⟩
  · simp only [perform, reload, hl, hc]
    exact .faulted hl hc
  · simp only [perform, reload, hl, hc]
    exact .reloaded hl hc

theorem performs_prefill {s : Session E} {l : Loaded E} (hl : s.phase = .loaded l)
    (prompt : String) (parseControl : Bool) (maxNewTokens : Nat) :
    s.Performs (.prefill prompt parseControl maxNewTokens)
      (s.perform (.prefill prompt parseControl maxNewTokens)) := by
  have hp := l.prefills s.options.rejectLongPrompts s.nextTurnId prompt parseControl maxNewTokens
    s.world
  rcases hr : l.prefill s.options.rejectLongPrompts s.nextTurnId prompt parseControl
    maxNewTokens s.world with ⟨e | report, l', w⟩
  · rw [hr] at hp
    simp only [perform, prefill, hl, hr]
    exact .notBegun hl hp
  · rw [hr] at hp
    simp only [perform, prefill, hl, hr]
    exact .begun hl hp

theorem performs_step {s : Session E} {l : Loaded E} (hl : s.phase = .loaded l) :
    s.Performs .step (s.perform .step) := by
  cases ht : l.turn with
  | none =>
    simp only [perform, decodeStep, hl, ht]
    exact .noTurn hl ht
  | some t =>
    cases hf : t.finished with
    | some reason =>
      simp only [perform, decodeStep, hl, ht, hf]
      exact .finished hl ht hf
    | none =>
      obtain ⟨outcome, l', w, hsteps, hstep⟩ := decodeStep_of_running hl ht hf
      simp only [perform, hstep]
      exact .stepped hl ht hf hsteps

theorem performs_stepFor {s : Session E} (hstep : s.Performs .step (s.perform .step)) (id : Nat) :
    s.Performs (.stepFor id) (s.perform (.stepFor id)) := by
  cases hid : s.turnId? with
  | none =>
    simp only [perform, decodeStepFor, hid]
    exact .stepFor (by simp [hid]) hstep
  | some current =>
    by_cases heq : current = id
    · simp only [perform, decodeStepFor, hid, if_pos heq]
      exact .stepFor (by simp [hid, heq]) hstep
    · simp only [perform, decodeStepFor, hid, if_neg heq]
      exact .replaced hid heq

theorem performs_clearCache {s : Session E} {l : Loaded E} (hl : s.phase = .loaded l)
    (full : Bool) : s.Performs (.clearCache full) (s.perform (.clearCache full)) := by
  simp only [perform, clearCache, hl]
  exact .cleared hl rfl

theorem performs_benchmark {s : Session E} {l : Loaded E} (hl : s.phase = .loaded l)
    (shape : BenchShape) : s.Performs (.benchmark shape) (s.perform (.benchmark shape)) := by
  simp only [perform, benchmark, hl]
  exact .measured hl rfl

/-- **An operation goes one of these ways.** -/
theorem performs (s : Session E) (op : Operation) : s.Performs op (s.perform op) := by
  have hstep : s.Performs .step (s.perform .step) :=
    performs_of_needsModel rfl fun _ hl => performs_step hl
  cases op with
  | load path => exact s.performs_load path
  | reload threads contextSize =>
    exact performs_of_needsModel rfl fun _ hl => performs_reload hl threads contextSize
  | prefill prompt parseControl maxNewTokens =>
    exact performs_of_needsModel rfl fun _ hl =>
      performs_prefill hl prompt parseControl maxNewTokens
  | step => exact hstep
  | stepFor id => exact performs_stepFor hstep id
  | clearCache full => exact performs_of_needsModel rfl fun _ hl => performs_clearCache hl full
  | benchmark shape => exact performs_of_needsModel rfl fun _ hl => performs_benchmark hl shape
  | unload => exact .unloaded

/-- A turn that has begun. -/
theorem exists_prefills_of_prefill {s₀ s : Session E} {prompt : String} {parseControl : Bool}
    {maxNewTokens : Nat} {report : PrefillReport}
    (h : s₀.prefill prompt parseControl maxNewTokens = (.ok report, s)) :
    ∃ l l', s₀.phase = .loaded l ∧ s.phase = .loaded l' ∧ s.options = s₀.options ∧
      l.Prefills s₀.options.rejectLongPrompts s₀.nextTurnId prompt parseControl maxNewTokens
        s₀.world (.ok report, l', s.world) := by
  have hp := s₀.performs (.prefill prompt parseControl maxNewTokens)
  rw [perform, h] at hp
  cases hp with
  | begun hl hp => exact ⟨_, _, hl, rfl, rfl, hp⟩

end Session
end LlmSession
