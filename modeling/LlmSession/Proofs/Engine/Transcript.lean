import LlmSession.Bench.Run
import LlmSession.Engine.Transcript
import LlmSession.Proofs.Engine.Passes
import LlmSession.Proofs.Stop.Preparation

/-!
# What a transcript gains

An engine under observation behaves as the engine does, and keeps the calls that it gets.  This
file says by which calls the transcript grows when a session makes a pass, makes several passes,
prepares its stop tokens or runs a benchmark.

Two kinds of statement are needed.  Where the outcome is a success the calls are known exactly
(`callsIn_of_submitAll_eq_ok`, `exists_readings_of_readsAll`).  Where it is not, it is enough
to know what kind of calls they were, and `OnlyGot` says that.

## Main definitions

* `Engine.callsIn`: the transcript in the world of an engine under observation.
* `Engine.OnlyGot`: what kind of calls came between two worlds.
* `EngineCall.IsPass`, `EngineCall.IsReading`, `EngineCall.TouchesCache`: kinds of calls.
-/

namespace LlmSession

/-! ## Kinds of calls -/

namespace EngineCall

/-- A forward pass. -/
def IsPass : EngineCall → Prop
  | .decode _ _ => True
  | _ => False

/-- A text that is turned into tokens. -/
def IsReading : EngineCall → Prop
  | .tokenize _ _ _ _ => True
  | _ => False

/-- A token that is drawn. -/
def IsDraw : EngineCall → Prop
  | .sample _ => True
  | _ => False

/-- A pass, or the cache emptied: what may change the distribution to draw from. -/
def TouchesCache : EngineCall → Prop
  | .decode _ _ => True
  | .clearMemory _ => True
  | _ => False

/-- A context that is there from now on. -/
def CreatesContext : EngineCall → Prop
  | .newContext _ created => created = true
  | _ => False

/-- The call that turns a stop string into tokens, if it goes well. -/
def reading (p : String × List Token) : EngineCall := .tokenize p.1 false true (some p.2)

variable {call : EngineCall}

theorem IsPass.touchesCache (h : call.IsPass) : call.TouchesCache := by
  cases call with
  | decode slots made => trivial
  | _ => exact h.elim

theorem TouchesCache.not_isDraw (h : call.TouchesCache) : ¬ call.IsDraw := by
  cases call with
  | sample token => exact h.elim
  | _ => exact id

theorem TouchesCache.not_createsContext (h : call.TouchesCache) : ¬ call.CreatesContext := by
  cases call with
  | newContext config created => exact h.elim
  | _ => exact id

theorem IsReading.not_isDraw (h : call.IsReading) : ¬ call.IsDraw := by
  cases call with
  | sample token => exact h.elim
  | _ => exact id

theorem IsReading.not_createsContext (h : call.IsReading) : ¬ call.CreatesContext := by
  cases call with
  | newContext config created => exact h.elim
  | _ => exact id

end EngineCall

namespace Engine

variable {E : Engine}

/-- The calls that an engine under observation got so far, oldest first. -/
def callsIn (w : E.recorded.World) : List EngineCall :=
  (show E.World × Array EngineCall from w).2.toList

/-! ## One call -/

section

variable {w w' : E.recorded.World}

theorem callsIn_of_loadModel {path : String} {gpuLayers : UInt32}
    {outcome : Except SessionError E.recorded.Model}
    (h : E.recorded.loadModel path gpuLayers w = (outcome, w')) :
    callsIn w' = callsIn w ++ [.loadModel path gpuLayers (succeeded outcome)] := by
  cases h
  exact Array.toList_push

theorem callsIn_of_newContext {model : E.recorded.Model} {config : ContextConfig}
    {outcome : Except SessionError E.recorded.Context}
    (h : E.recorded.newContext model config w = (outcome, w')) :
    callsIn w' = callsIn w ++ [.newContext config (succeeded outcome)] := by
  cases h
  exact Array.toList_push

theorem callsIn_newSampler (config : SamplerConfig) (w : E.recorded.World) :
    callsIn (E.recorded.newSampler config w).2 = callsIn w ++ [.newSampler config] :=
  Array.toList_push

theorem callsIn_of_tokenize {context : E.recorded.Context} {text : String}
    {addSpecial parseControl : Bool} {outcome : Except SessionError (List Token)}
    (h : E.recorded.tokenize context text addSpecial parseControl w = (outcome, w')) :
    callsIn w' = callsIn w ++ [.tokenize text addSpecial parseControl outcome.toOption] := by
  cases h
  exact Array.toList_push

theorem callsIn_of_decode {batch : TokenBatch} {context context' : E.recorded.Context}
    {outcome : Except SessionError Unit}
    (h : E.recorded.decode batch context w = (outcome, context', w')) :
    callsIn w' = callsIn w ++ [.decode batch.filled (succeeded outcome)] := by
  cases h
  exact Array.toList_push

theorem callsIn_sample (sampler : E.recorded.Sampler) (context : E.recorded.Context)
    (w : E.recorded.World) :
    callsIn (E.recorded.sample sampler context w).2.2 =
      callsIn w ++ [.sample (E.recorded.sample sampler context w).1] :=
  Array.toList_push

theorem callsIn_of_clearMemory {full : Bool} {context context' : E.recorded.Context}
    (h : E.recorded.clearMemory full context w = (context', w')) :
    callsIn w' = callsIn w ++ [.clearMemory full] := by
  cases h
  exact Array.toList_push

end

/-! ## Calls of one kind -/

/-- From `w` to `w'` the engine got calls of one kind only. -/
def OnlyGot (P : EngineCall → Prop) (w w' : E.recorded.World) : Prop :=
  ∃ new, callsIn w' = callsIn w ++ new ∧ ∀ call ∈ new, P call

section

variable {P Q : EngineCall → Prop} {w w₁ w₂ : E.recorded.World}

theorem OnlyGot.refl (P : EngineCall → Prop) (w : E.recorded.World) : OnlyGot P w w :=
  ⟨[], (List.append_nil _).symm, nofun⟩

theorem OnlyGot.trans (h₁ : OnlyGot P w w₁) (h₂ : OnlyGot P w₁ w₂) : OnlyGot P w w₂ := by
  obtain ⟨new₁, hnew₁, hall₁⟩ := h₁
  obtain ⟨new₂, hnew₂, hall₂⟩ := h₂
  refine ⟨new₁ ++ new₂, by rw [hnew₂, hnew₁, List.append_assoc], fun call hcall => ?_⟩
  exact (List.mem_append.1 hcall).elim (hall₁ call) (hall₂ call)

theorem OnlyGot.mono (h : OnlyGot P w w₁) (hPQ : ∀ call, P call → Q call) : OnlyGot Q w w₁ := by
  obtain ⟨new, hnew, hall⟩ := h
  exact ⟨new, hnew, fun call hcall => hPQ call (hall call hcall)⟩

theorem onlyGot_of_one {call : EngineCall} (h : callsIn w₁ = callsIn w ++ [call]) (hP : P call) :
    OnlyGot P w w₁ := by
  refine ⟨[call], h, fun call' hcall' => ?_⟩
  rwa [List.mem_singleton.1 hcall']

end

/-! ## Passes -/

section

variable {batch batch' : TokenBatch} {context context' : E.recorded.Context}
  {w w' : E.recorded.World}

/-- A pass that goes well is one call, with the slots that were handed over. -/
theorem callsIn_of_submitSlots_eq_ok {slots : List BatchSlot}
    (h : E.recorded.submitSlots slots batch context w = (.ok (), batch', context', w')) :
    callsIn w' = callsIn w ++ [.decode slots true] := by
  rcases submitSlots_cases h with ⟨e, -, he, -, -⟩ | ⟨hfilled, hsubmit⟩
  · exact nomatch he
  rcases submit_cases hsubmit with ⟨-, hdecode⟩ | ⟨e, he, -⟩
  · rw [callsIn_of_decode hdecode, hfilled]
    rfl
  · exact nomatch he

theorem onlyGot_isPass_of_submit {outcome : Except SessionError Unit}
    (h : E.recorded.submit batch context w = (outcome, context', w')) :
    OnlyGot EngineCall.IsPass w w' := by
  rcases submit_cases h with ⟨-, hdecode⟩ | ⟨e, -, hdecode⟩
  · exact onlyGot_of_one (callsIn_of_decode hdecode) trivial
  · exact onlyGot_of_one (callsIn_of_decode hdecode) trivial

theorem onlyGot_isPass_of_submitSlots {slots : List BatchSlot} {outcome : Except SessionError Unit}
    (h : E.recorded.submitSlots slots batch context w = (outcome, batch', context', w')) :
    OnlyGot EngineCall.IsPass w w' := by
  rcases submitSlots_cases h with ⟨e, -, -, -, rfl⟩ | ⟨-, hsubmit⟩
  · exact .refl _ _
  · exact onlyGot_isPass_of_submit hsubmit

/-- Passes that all go well are one call for each part. -/
theorem callsIn_of_submitAll_eq_ok {parts : List (List BatchSlot)}
    (h : E.recorded.submitAll parts batch context w = (.ok (), batch', context', w')) :
    callsIn w' = callsIn w ++ parts.map fun slots => .decode slots true := by
  induction parts generalizing batch context w with
  | nil =>
    cases h
    exact (List.append_nil _).symm
  | cons slots rest ih =>
    rcases submitAll_cons h with ⟨e, he, -⟩ | ⟨batch₁, context₁, w₁, hslots, hrest⟩
    · exact nomatch he
    · rw [ih hrest, callsIn_of_submitSlots_eq_ok hslots, List.append_assoc]
      rfl

theorem onlyGot_isPass_of_submitAll {parts : List (List BatchSlot)}
    {outcome : Except SessionError Unit}
    (h : E.recorded.submitAll parts batch context w = (outcome, batch', context', w')) :
    OnlyGot EngineCall.IsPass w w' := by
  induction parts generalizing batch context w with
  | nil =>
    cases h
    exact .refl _ _
  | cons slots rest ih =>
    rcases submitAll_cons h with ⟨e, -, hslots⟩ | ⟨batch₁, context₁, w₁, hslots, hrest⟩
    · exact onlyGot_isPass_of_submitSlots hslots
    · exact (onlyGot_isPass_of_submitSlots hslots).trans (ih hrest)

end

/-! ## The stop tokens -/

section

variable {w w' : E.recorded.World}

variable {context : E.recorded.Context} {texts : List String}

/-- All stop strings were read: there is one call for each, with its tokens. -/
theorem exists_readings_of_readsAll {lists : List (List Token)}
    (h : ReadsAll (fun text => E.recorded.tokenize context text false true) texts w lists w') :
    ∃ read : List (String × List Token), read.map Prod.fst = texts ∧ read.map Prod.snd = lists ∧
      callsIn w' = callsIn w ++ read.map EngineCall.reading := by
  induction h with
  | nil => exact ⟨[], rfl, rfl, (List.append_nil _).symm⟩
  | @cons text _ tokens _ _ _ _ hfirst _ ih =>
    obtain ⟨read, htexts, hlists, hcalls⟩ := ih
    refine ⟨(text, tokens) :: read, by rw [List.map_cons, htexts],
      by rw [List.map_cons, hlists], ?_⟩
    rw [hcalls, callsIn_of_tokenize hfirst, List.append_assoc]
    rfl

/-- One of the stop strings could not be read: there is one call for each of those in front of it,
and one for that string. -/
theorem exists_readings_of_failsOn {e : SessionError}
    (h : FailsOn (fun text => E.recorded.tokenize context text false true) texts w e w') :
    ∃ (read : List (String × List Token)) (text : String) (rest : List String),
      texts = read.map Prod.fst ++ text :: rest ∧
      callsIn w' = callsIn w ++ (read.map EngineCall.reading ++
        [.tokenize text false true none]) := by
  induction h with
  | @here text texts _ _ _ hfirst => exact ⟨[], text, texts, rfl, callsIn_of_tokenize hfirst⟩
  | @later text _ tokens _ _ _ _ hfirst _ ih =>
    obtain ⟨read, last, rest, rfl, hcalls⟩ := ih
    refine ⟨(text, tokens) :: read, last, rest, rfl, ?_⟩
    rw [hcalls, callsIn_of_tokenize hfirst, List.append_assoc]
    rfl

/-- Whatever comes of it, only stop strings are read to make the set of their tokens. -/
theorem onlyGot_of_prepare {P : EngineCall → Prop}
    (hP : ∀ text answer, P (.tokenize text false true answer)) {c : StopConditions}
    {answer : Except SessionError StopConditions}
    (h : c.prepare (fun text => E.recorded.tokenize context text false true) w = (answer, w')) :
    OnlyGot P w w' := by
  have hreadings (read : List (String × List Token)) :
      ∀ call ∈ read.map EngineCall.reading, P call := by
    intro call hcall
    obtain ⟨p, -, rfl⟩ := List.mem_map.1 hcall
    exact hP _ _
  have hprepares := c.prepares (fun text => E.recorded.tokenize context text false true) w
  rw [h] at hprepares
  cases hprepares with
  | there _ => exact .refl _ _
  | made _ hreads =>
    obtain ⟨read, -, -, hcalls⟩ := exists_readings_of_readsAll hreads
    exact ⟨_, hcalls, hreadings read⟩
  | failed _ hfails =>
    obtain ⟨read, text, rest, -, hcalls⟩ := exists_readings_of_failsOn hfails
    refine ⟨_, hcalls, fun call hcall => ?_⟩
    rcases List.mem_append.1 hcall with hcall | hcall
    · exact hreadings read call hcall
    · rw [List.mem_singleton.1 hcall]
      exact hP _ _

theorem onlyGot_of_attempt {P : EngineCall → Prop}
    (hP : ∀ text answer, P (.tokenize text false true answer)) {c c' : StopConditions}
    {made : Except SessionError Unit}
    (h : c.attempt (fun text => E.recorded.tokenize context text false true) w = (made, c', w')) :
    OnlyGot P w w' := by
  rcases hprepare : c.prepare (fun text => E.recorded.tokenize context text false true) w with
    ⟨e | stop, w₁⟩
  · cases h.symm.trans (StopConditions.attempt_of_prepare_eq_error hprepare)
    exact onlyGot_of_prepare hP hprepare
  · cases h.symm.trans (StopConditions.attempt_of_prepare_eq_ok hprepare)
    exact onlyGot_of_prepare hP hprepare

end

/-! ## A benchmark -/

section

variable {shape : BenchShape} {batch batch' : TokenBatch} {context context' : E.recorded.Context}
  {w w' : E.recorded.World}

theorem onlyGot_isPass_of_generate {step remaining : Nat} {outcome : Except SessionError Unit}
    (h : E.recorded.generate shape step remaining batch context w =
      (outcome, batch', context', w')) :
    OnlyGot EngineCall.IsPass w w' := by
  induction remaining generalizing step batch context w with
  | zero =>
    cases h
    exact .refl _ _
  | succ remaining ih =>
    unfold generate at h
    rcases hslots : E.recorded.submitSlots (shape.stepSlots step) batch context w with
      ⟨e | _, batch₁, context₁, w₁⟩
    · simp only [hslots] at h
      cases h
      exact onlyGot_isPass_of_submitSlots hslots
    · simp only [hslots] at h
      exact (onlyGot_isPass_of_submitSlots hslots).trans (ih h)

theorem onlyGot_of_clearMemory {full : Bool} {context₁ : E.recorded.Context}
    {w₁ : E.recorded.World} (h : E.recorded.clearMemory full context w = (context₁, w₁)) :
    OnlyGot EngineCall.TouchesCache w w₁ :=
  onlyGot_of_one (callsIn_of_clearMemory h) trivial

theorem onlyGot_of_benchmarkOnce {outcome : Except SessionError (Float × Float)}
    (h : E.recorded.benchmarkOnce shape batch context w = (outcome, batch', context', w')) :
    OnlyGot EngineCall.TouchesCache w w' := by
  unfold benchmarkOnce at h
  cases hstaged : shape.stagePrompt batch with
  | error e =>
    simp only [hstaged] at h
    cases h
    exact .refl _ _
  | ok staged =>
  rcases hempty : E.recorded.clearMemory false context w with ⟨context₁, w₁⟩
  rcases hprompt : E.recorded.submit staged context₁ w₁ with ⟨e | _, context₂, w₂⟩
  · simp only [hstaged, hempty, hprompt] at h
    cases h
    exact (onlyGot_of_clearMemory hempty).trans
      ((onlyGot_isPass_of_submit hprompt).mono fun _ => EngineCall.IsPass.touchesCache)
  rcases hagain : E.recorded.clearMemory false context₂ w₂ with ⟨context₃, w₃⟩
  have hgot : OnlyGot EngineCall.TouchesCache w w₃ :=
    ((onlyGot_of_clearMemory hempty).trans
      ((onlyGot_isPass_of_submit hprompt).mono fun _ => EngineCall.IsPass.touchesCache)).trans
      (onlyGot_of_clearMemory hagain)
  rcases hsteps : E.recorded.generate shape 0 shape.generationSteps staged context₃ w₃ with
    ⟨e | _, batch₄, context₄, w₄⟩
  · simp only [hstaged, hempty, hprompt, hagain, hsteps] at h
    cases h
    exact hgot.trans
      ((onlyGot_isPass_of_generate hsteps).mono fun _ => EngineCall.IsPass.touchesCache)
  · simp only [hstaged, hempty, hprompt, hagain, hsteps] at h
    cases h
    exact hgot.trans
      ((onlyGot_isPass_of_generate hsteps).mono fun _ => EngineCall.IsPass.touchesCache)

theorem onlyGot_of_benchmarkRuns {runs : Nat} {tally tally' : BenchTally}
    (h : E.recorded.benchmarkRuns shape runs tally batch context w =
      (tally', batch', context', w')) :
    OnlyGot EngineCall.TouchesCache w w' := by
  induction runs generalizing tally batch context w with
  | zero =>
    cases h
    exact .refl _ _
  | succ runs ih =>
    unfold benchmarkRuns at h
    rcases honce : E.recorded.benchmarkOnce shape batch context w with
      ⟨outcome, batch₁, context₁, w₁⟩
    rcases hempty : E.recorded.clearMemory false context₁ w₁ with ⟨context₂, w₂⟩
    simp only [honce, hempty] at h
    exact ((onlyGot_of_benchmarkOnce honce).trans (onlyGot_of_clearMemory hempty)).trans (ih h)

/-- **A benchmark** makes passes and empties the cache, and does nothing else with the engine. -/
theorem onlyGot_of_benchmark {model : ModelSummary} {outcome : Except SessionError BenchReport}
    (h : E.recorded.benchmark shape model batch context w = (outcome, batch', context', w')) :
    OnlyGot EngineCall.TouchesCache w w' := by
  unfold benchmark at h
  split at h
  · cases h
    exact .refl _ _
  · rcases hruns : E.recorded.benchmarkRuns shape shape.runs {} batch context w with
      ⟨tally, batch₁, context₁, w₁⟩
    simp only [hruns] at h
    cases h
    exact onlyGot_of_benchmarkRuns hruns

end

end Engine
end LlmSession
