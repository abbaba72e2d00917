import LlmSession.Proofs.Session.Calls
import Mathlib.Data.List.Induction

/-!
# Contexts that are created anew

A session can be asked to create its context anew with other settings, and each setting that is not
given stays as it was.  So the settings of a context are not those of the options, nor those of one
request: they go back through all requests to the load of the model, each setting to the last one
that gave it.  Only a load begins again from the options.

The session does not remember the requests.  It remembers how its context was created and changes
that, and the rest of what it holds is carried over to the new context.  That the two accounts agree
is an invariant of runs (`Session.exists_lastLoad`): a session that is loaded was loaded once, and
since then nothing but requests for a new context has changed the settings.  A request that fails
leaves no context to go on with, so all of them since the load have succeeded.

## Main statements

* `ContextConfig.withReloads_concat`: one more request.
* `Session.Performs.holds`: how a session came by what it holds.
* `Session.Performs.asks`: which operations ask for a context, and for which.
* `Session.reloads_accumulate`: the settings of every context that is asked for, and what survives.
-/

namespace LlmSession

/-! ## Settings that are given one after the other -/

/-- The settings that are asked for with a new context. -/
def Operation.reload? : Operation → Option (Option UInt32 × Option UInt32)
  | .reload threads contextSize => some (threads, contextSize)
  | _ => none

/-- The threads that were asked for last. -/
def latestThreads? (ops : List Operation) : Option UInt32 :=
  ((ops.filterMap Operation.reload?).filterMap Prod.fst).getLast?

/-- The places that were asked for last. -/
def latestContextSize? (ops : List Operation) : Option UInt32 :=
  ((ops.filterMap Operation.reload?).filterMap Prod.snd).getLast?

/-- A configuration with those fields replaced that were asked for, each by what was asked for
last. -/
def ContextConfig.withReloads (config : ContextConfig) (ops : List Operation) : ContextConfig :=
  { config with
    threads := (latestThreads? ops).or config.threads
    contextSize := (latestContextSize? ops).getD config.contextSize }

namespace ContextConfig

variable (config : ContextConfig) (ops : List Operation)

theorem withReloads_of_reload?_eq_none {op : Operation} (h : op.reload? = none) :
    config.withReloads (ops ++ [op]) = config.withReloads ops := by
  simp only [withReloads, latestThreads?, latestContextSize?, List.filterMap_append,
    List.filterMap_cons, h, List.filterMap_nil, List.append_nil]

/-- **One more request** replaces just what it gives. -/
theorem withReloads_concat (threads contextSize : Option UInt32) :
    config.withReloads (ops ++ [.reload threads contextSize]) =
      Session.reconfigure (config.withReloads ops) threads contextSize := by
  simp only [withReloads, Session.reconfigure, latestThreads?, latestContextSize?,
    List.filterMap_append, List.filterMap_cons, Operation.reload?, List.filterMap_nil]
  cases threads <;> cases contextSize <;> simp

end ContextConfig

namespace Session

variable {E : Engine}

/-! ## The last load -/

/-- The last load of a run that went well, with what was done before it and since. -/
structure LastLoad (s : Session E) (ops before : List Operation) (path : String)
    (since : List Operation) : Prop where
  ops_eq : ops = before ++ .load path :: since
  loaded : ∃ summary, ((s.after before).load path).1 = .ok summary
  not_since : ∀ answer ∈ ((s.after before).load path).2.answers since,
    ∀ summary, answer ≠ .ok (.loaded summary)

/-- How a session came by what it holds after an operation. -/
inductive Holds (s : Session E) (op : Operation) (answer : Except SessionError Answer)
    (l' : Loaded E) : Prop where
  /-- It was loaded. -/
  | loaded {path : String} {summary : ModelSummary} (hop : op = .load path)
    (hanswer : answer = .ok (.loaded summary)) (hconfig : l'.config = s.options.context)
  /-- It got a new context. -/
  | reloaded {l : Loaded E} {threads contextSize : Option UInt32}
    (hop : op = .reload threads contextSize) (hanswer : answer = .ok .done)
    (hl : s.phase = .loaded l) (hmodel : l'.model = l.model) (hsummary : l'.summary = l.summary)
    (hconfig : l'.config = reconfigure l.config threads contextSize)
  /-- It had it before. -/
  | kept {l : Loaded E} (hop : op.reload? = none)
    (hanswer : ∀ summary, answer ≠ .ok (.loaded summary)) (hl : s.phase = .loaded l)
    (hkeeps : l.Keeps l')

variable {s : Session E} {op : Operation} {result : Except SessionError Answer × Session E}

/-- **How a session came by what it holds.** -/
theorem Performs.holds (hp : s.Performs op result) {l' : Loaded E}
    (hl' : result.2.phase = .loaded l') : s.Holds op result.1 l' := by
  induction hp with
  | notIdle _ => exact .kept rfl nofun hl' ⟨rfl, rfl, rfl⟩
  | notLoaded _ h => exact absurd hl' (h l')
  | noTurn _ _ => exact .kept rfl nofun hl' ⟨rfl, rfl, rfl⟩
  | replaced _ _ => exact .kept rfl nofun hl' ⟨rfl, rfl, rfl⟩
  | finished _ _ _ => exact .kept rfl nofun hl' ⟨rfl, rfl, rfl⟩
  | loadFailed hidle _ => exact nomatch hidle.symm.trans hl'
  | loaded _ ha =>
    cases hl'
    cases ha with
    | had _ _ _ => exact .loaded rfl rfl rfl
  | faulted _ _ => exact nomatch hl'
  | reloaded hl _ =>
    cases hl'
    exact .reloaded rfl rfl hl rfl rfl rfl
  | notBegun hl hp =>
    cases hl'
    exact .kept rfl nofun hl hp.keeps
  | begun hl hp =>
    cases hl'
    exact .kept rfl nofun hl hp.keeps
  | @stepped l l' t outcome w hl _ _ hstep =>
    cases hl'
    exact .kept rfl (fun summary => by cases outcome <;> exact nofun) hl hstep.keeps
  | stepFor _ _ ih =>
    cases ih hl' with
    | loaded hop => exact nomatch hop
    | reloaded hop => exact nomatch hop
    | kept _ hanswer hl hkeeps => exact .kept rfl hanswer hl hkeeps
  | cleared hl _ =>
    cases hl'
    exact .kept rfl nofun hl ⟨rfl, rfl, rfl⟩
  | @measured l shape outcome batch context w hl _ =>
    cases hl'
    exact .kept rfl (fun summary => by cases outcome <;> exact nofun) hl ⟨rfl, rfl, rfl⟩
  | unloaded => exact nomatch hl'

theorem LastLoad.after_eq {ops before since : List Operation} {path : String}
    (h : s.LastLoad ops before path since) :
    s.after ops = ((s.after before).load path).2.after since := by
  rw [h.ops_eq, after_append]
  rfl

/-- What is done after the last load, and is no load that goes well. -/
theorem LastLoad.concat {ops before since : List Operation} {path : String}
    (h : s.LastLoad ops before path since)
    (hanswer : ∀ summary, ((s.after ops).perform op).1 ≠ .ok (.loaded summary)) :
    s.LastLoad (ops ++ [op]) before path (since ++ [op]) where
  ops_eq := by rw [h.ops_eq, List.append_assoc, List.cons_append]
  loaded := h.loaded
  not_since := by
    intro answer hmem
    rw [answers_append, ← h.after_eq] at hmem
    rcases List.mem_append.1 hmem with hmem | hmem
    · exact h.not_since answer hmem
    · rw [List.mem_singleton.1 hmem]
      exact hanswer

theorem lastLoad_concat {ops : List Operation} {path : String} {summary : ModelSummary}
    (h : ((s.after ops).perform (.load path)).1 = .ok (.loaded summary)) :
    s.LastLoad (ops ++ [.load path]) ops path [] where
  ops_eq := rfl
  loaded := by
    rw [perform] at h
    cases hload : ((s.after ops).load path).1 with
    | error e =>
      rw [hload] at h
      cases h
    | ok summary => exact ⟨summary, rfl⟩
  not_since _ hmem := absurd hmem List.not_mem_nil

/-- **A session that is loaded** was loaded once, and its settings go back to that. -/
theorem exists_lastLoad (hidle : s.phase = .idle) (ops : List Operation) {l : Loaded E}
    (hl : (s.after ops).phase = .loaded l) :
    ∃ before path since l₁, s.LastLoad ops before path since ∧
      ((s.after before).load path).2.phase = .loaded l₁ ∧ l.model = l₁.model ∧
      l.summary = l₁.summary ∧ l.config = s.options.context.withReloads since := by
  induction ops using List.reverseRecOn generalizing l with
  | nil => exact nomatch hidle.symm.trans hl
  | append_singleton ops op ih =>
    rw [after_append] at hl
    cases ((s.after ops).performs op).holds hl with
    | @loaded path summary hop hanswer hconfig =>
      subst hop
      rw [options_after] at hconfig
      exact ⟨ops, path, [], l, lastLoad_concat hanswer, hl, rfl, rfl, hconfig⟩
    | @reloaded l₀ threads contextSize hop hanswer hl₀ hmodel hsummary hconfig =>
      obtain ⟨before, path, since, l₁, hlast, hl₁, hmodel₁, hsummary₁, hconfig₁⟩ := ih hl₀
      refine ⟨before, path, since ++ [op], l₁, hlast.concat (by rw [hanswer]; exact nofun), hl₁,
        hmodel.trans hmodel₁, hsummary.trans hsummary₁, ?_⟩
      rw [hconfig, hconfig₁, hop, ContextConfig.withReloads_concat]
    | kept hop hanswer hl₀ hkeeps =>
      obtain ⟨before, path, since, l₁, hlast, hl₁, hmodel₁, hsummary₁, hconfig₁⟩ := ih hl₀
      refine ⟨before, path, since ++ [op], l₁, hlast.concat hanswer, hl₁,
        hkeeps.model_eq.trans hmodel₁, hkeeps.summary_eq.trans hsummary₁, ?_⟩
      rw [hkeeps.config_eq, hconfig₁, ContextConfig.withReloads_of_reload?_eq_none _ _ hop]

end Session

/-! ## What is asked for -/

/-- A context that is asked for, if this is such a call, is to have these settings. -/
def EngineCall.AsksOnlyFor (config : ContextConfig) : EngineCall → Prop
  | .newContext asked _ => asked = config
  | _ => True

namespace Session

variable {E : Engine} {s : Session E.recorded} {op : Operation}
  {result : Except SessionError Answer × Session E.recorded}

theorem onlyGot_of_allocates {options : SessionOptions} {path : String} {w w' : E.recorded.World}
    {answer : Except SessionError (Loaded E.recorded)}
    (h : Allocates options path w (answer, w')) :
    Engine.OnlyGot (EngineCall.AsksOnlyFor options.context) w w' := by
  have hmodel {outcome : Except SessionError E.recorded.Model} {w₁ : E.recorded.World}
      (hm : E.recorded.loadModel path options.gpuLayers w = (outcome, w₁)) :
      Engine.OnlyGot (EngineCall.AsksOnlyFor options.context) w w₁ :=
    Engine.onlyGot_of_one (Engine.callsIn_of_loadModel hm) trivial
  have hcontext {model : E.recorded.Model} {outcome : Except SessionError E.recorded.Context}
      {w₁ w₂ : E.recorded.World}
      (hc : E.recorded.newContext model options.context w₁ = (outcome, w₂)) :
      Engine.OnlyGot (EngineCall.AsksOnlyFor options.context) w₁ w₂ :=
    Engine.onlyGot_of_one (Engine.callsIn_of_newContext hc) rfl
  cases h with
  | noModel hm => exact hmodel hm
  | noContext hm hc => exact (hmodel hm).trans (hcontext hc)
  | noBatch hm hc _ => exact (hmodel hm).trans (hcontext hc)
  | had hm hc _ =>
    exact ((hmodel hm).trans (hcontext hc)).trans
      (Engine.onlyGot_of_one (Engine.callsIn_newSampler _ _) trivial)

/-- Which contexts an operation asks for. -/
inductive Asks (s : Session E.recorded) : Operation → Session E.recorded → Prop where
  /-- That of the options, or none. -/
  | loads {path : String} {s' : Session E.recorded}
    (hgot : Engine.OnlyGot (EngineCall.AsksOnlyFor s.options.context) s.world s'.world) :
    Asks s (.load path) s'
  /-- One with the settings that are given. -/
  | reloads {threads contextSize : Option UInt32} {l : Loaded E.recorded} {made : Bool}
    {s' : Session E.recorded} (hl : s.phase = .loaded l)
    (hcalls : s'.calls = s.calls ++ [.newContext (reconfigure l.config threads contextSize) made]) :
    Asks s (.reload threads contextSize) s'
  /-- None. -/
  | nothing {op : Operation} {s' : Session E.recorded}
    (hgot : Engine.OnlyGot (fun call => ¬ call.AsksContext) s.world s'.world) : Asks s op s'

/-- **Which operations ask for a context**, and for which. -/
theorem Performs.asks (hp : s.Performs op result) : s.Asks op result.2 := by
  induction hp with
  | notIdle _ => exact .nothing (.refl _ _)
  | notLoaded _ _ => exact .nothing (.refl _ _)
  | noTurn _ _ => exact .nothing (.refl _ _)
  | replaced _ _ => exact .nothing (.refl _ _)
  | finished _ _ _ => exact .nothing (.refl _ _)
  | unloaded => exact .nothing (.refl _ _)
  | loadFailed _ ha => exact .loads (onlyGot_of_allocates ha)
  | loaded _ ha => exact .loads (onlyGot_of_allocates ha)
  | faulted hl hc => exact .reloads hl (Engine.callsIn_of_newContext hc)
  | reloaded hl hc => exact .reloads hl (Engine.callsIn_of_newContext hc)
  | notBegun _ hp => exact .nothing (hp.onlyGot.mono fun _ h => h.elim
      EngineCall.IsReading.not_asksContext fun h => h.touchesCache.not_asksContext)
  | begun _ hp => exact .nothing (hp.onlyGot.mono fun _ h => h.elim
      EngineCall.IsReading.not_asksContext fun h => h.touchesCache.not_asksContext)
  | stepped _ _ _ hstep =>
    exact .nothing (hstep.onlyGot_isDraw_or_isPass.mono fun _ h => h.elim
      EngineCall.IsDraw.not_asksContext fun h => h.touchesCache.not_asksContext)
  | stepFor _ _ ih =>
    cases ih with
    | nothing hgot => exact .nothing hgot
  | cleared _ hc => exact .nothing (Engine.onlyGot_of_one (Engine.callsIn_of_clearMemory hc) id)
  | measured _ hb =>
    exact .nothing ((Engine.onlyGot_of_benchmark hb).mono fun _ =>
      EngineCall.TouchesCache.not_asksContext)

end Session

/-! ## What survives -/

/-- A new context with these settings, and all else as it was but for the turn. -/
structure Loaded.Renews {E : Engine} (l l' : Loaded E) (config : ContextConfig) : Prop where
  config_eq : l'.config = config
  model_eq : l'.model = l.model
  summary_eq : l'.summary = l.summary
  batch_eq : l'.batch = l.batch
  sampler_eq : l'.sampler = l.sampler
  turn_eq : l'.turn = none

/-- All is made from the options, and nothing was done with it yet. -/
structure Loaded.IsNew {E : Engine} (l : Loaded E) (options : SessionOptions) : Prop where
  config_eq : l.config = options.context
  batch_eq : TokenBatch.allocate options.context.batchCapacity.toNat 0
    options.context.maxSequences.toNat = .ok l.batch
  stop_eq : l.stop = options.stopConditions
  turn_eq : l.turn = none

namespace Session

variable {E : Engine} {s : Session E.recorded} {l : Loaded E.recorded}

/-- **A new context** is asked for once, and a session that gets it keeps the rest. -/
theorem exists_renews_of_loaded (hl : s.phase = .loaded l) (threads contextSize : Option UInt32) :
    let config := reconfigure l.config threads contextSize
    let result := s.perform (.reload threads contextSize)
    ∃ made, result.2.calls = s.calls ++ [.newContext config made] ∧
      (result.1 = .ok .done ↔ made = true) ∧
      (made = true → ∃ l', result.2.phase = .loaded l' ∧ l.Renews l' config) := by
  intro config result
  have hp : s.Performs (.reload threads contextSize) result := s.performs _
  generalize result = result at hp ⊢
  cases hp with
  | notLoaded _ h => exact absurd hl (h l)
  | faulted hl' hc =>
    cases hl.symm.trans hl'
    exact ⟨false, Engine.callsIn_of_newContext hc, ⟨nofun, nofun⟩, nofun⟩
  | reloaded hl' hc =>
    cases hl.symm.trans hl'
    exact ⟨true, Engine.callsIn_of_newContext hc, ⟨fun _ => rfl, fun _ => rfl⟩,
      fun _ => ⟨_, rfl, rfl, rfl, rfl, rfl, rfl, rfl⟩⟩

/-- **After unloading** a load begins again. -/
theorem exists_isNew_of_unload {path : String} {summary : ModelSummary}
    (h : (s.unload.load path).1 = .ok summary) :
    ∃ l, (s.unload.load path).2.phase = .loaded l ∧ l.IsNew s.options ∧ l.summary = summary ∧
      (s.unload.load path).2.calls = s.calls ++ [.loadModel path s.options.gpuLayers true,
        .newContext s.options.context true, .newSampler s.options.sampler] := by
  have hp := s.unload.performs (.load path)
  rw [perform, h] at hp
  generalize hafter : (s.unload.load path).2 = s' at hp ⊢
  cases hp with
  | loaded _ ha =>
    have hcalls := (callsIn_of_allocates_ok ha).1
    cases ha with
    | had hm hc hb => exact ⟨_, rfl, ⟨rfl, hb, rfl, rfl⟩, rfl, hcalls⟩

/-- **Each setting of a context is the one that was asked for last.**  Take any run of a new session
and one more operation.  A context that the engine is asked for is that of the options, for a load,
or else the operation is a request for a new context, and there was a last load that went well:
the settings are then those of the options, with each one replaced that was given in a request since
that load, by the last that was given.  The batch and the number of sequences are never replaced,
and there is a floor to the other two when they are put to the engine.

A request is put to the engine whenever the session is loaded.  If it succeeds, the model and its
summary are still those of that load, the batch and the sampler are those that were there before,
and there is no turn.  But after unloading, a load begins again from the options. -/
theorem reloads_accumulate (options : SessionOptions) (world : E.World) (ops : List Operation) :
    let new := observed options world
    let s := new.after ops
    (∀ op, ∃ more, (s.perform op).2.calls = s.calls ++ more ∧
      ∀ config made, .newContext config made ∈ more →
        (∃ path, op = .load path ∧ config = options.context) ∨
        ∃ threads contextSize before path since, op = .reload threads contextSize ∧
          new.LastLoad ops before path since ∧
          config = options.context.withReloads (since ++ [op])) ∧
    (∀ since cores, let config := options.context.withReloads since
      config.threads = (latestThreads? since).or options.context.threads ∧
      config.contextSize = (latestContextSize? since).getD options.context.contextSize ∧
      config.batchCapacity = options.context.batchCapacity ∧
      config.maxSequences = options.context.maxSequences ∧
      (∀ n, config.threads = some n → config.resolvedThreads cores = max n 1) ∧
      config.resolvedContextSize = max config.contextSize 512) ∧
    (∀ l threads contextSize, s.phase = .loaded l →
      ∃ before path since l₁ made, new.LastLoad ops before path since ∧
        ((new.after before).load path).2.phase = .loaded l₁ ∧
        l.model = l₁.model ∧ l.summary = l₁.summary ∧
        let config := options.context.withReloads (since ++ [.reload threads contextSize])
        let result := s.perform (.reload threads contextSize)
        result.2.calls = s.calls ++ [.newContext config made] ∧
          (result.1 = .ok .done ↔ made = true) ∧
          (made = true → ∃ l', result.2.phase = .loaded l' ∧ l.Renews l' config)) ∧
    ∀ path summary, (s.unload.load path).1 = .ok summary →
      ∃ l, (s.unload.load path).2.phase = .loaded l ∧ l.IsNew options ∧ l.summary = summary ∧
        (s.unload.load path).2.calls = s.calls ++ [.loadModel path options.gpuLayers true,
          .newContext options.context true, .newSampler options.sampler] := by
  intro new s
  have hoptions : s.options = options := options_after _ ops
  have hlast {l : Loaded E.recorded} (hl : s.phase = .loaded l)
      (threads contextSize : Option UInt32) :
      ∃ before path since l₁, new.LastLoad ops before path since ∧
        ((new.after before).load path).2.phase = .loaded l₁ ∧ l.model = l₁.model ∧
        l.summary = l₁.summary ∧ reconfigure l.config threads contextSize =
          options.context.withReloads (since ++ [.reload threads contextSize]) := by
    obtain ⟨before, path, since, l₁, hlast, hl₁, hmodel, hsummary, hconfig⟩ :=
      exists_lastLoad (s := new) rfl ops hl
    refine ⟨before, path, since, l₁, hlast, hl₁, hmodel, hsummary, ?_⟩
    rw [hconfig, ContextConfig.withReloads_concat]
    rfl
  refine ⟨fun op => ?_, ?_, ?_, ?_⟩
  · cases (s.performs op).asks with
    | @loads path _ hgot =>
      obtain ⟨more, hmore, hall⟩ := hgot
      refine ⟨more, hmore, fun config made hmem => Or.inl ⟨path, rfl, ?_⟩⟩
      rw [← hoptions]
      exact hall _ hmem
    | @reloads threads contextSize l made _ hl hcalls =>
      refine ⟨_, hcalls, fun config made hmem => Or.inr ?_⟩
      obtain ⟨before, path, since, -, hlast, -, -, -, hconfig⟩ := hlast hl threads contextSize
      cases List.mem_singleton.1 hmem
      exact ⟨threads, contextSize, before, path, since, rfl, hlast, hconfig⟩
    | nothing hgot =>
      obtain ⟨more, hmore, hall⟩ := hgot
      exact ⟨more, hmore, fun config made hmem => absurd trivial (hall _ hmem)⟩
  · intro since cores config
    refine ⟨rfl, rfl, rfl, rfl, fun n hn => ?_, rfl⟩
    rw [ContextConfig.resolvedThreads, hn]
  · intro l threads contextSize hl
    obtain ⟨before, path, since, l₁, hlast, hl₁, hmodel, hsummary, hconfig⟩ :=
      hlast hl threads contextSize
    obtain ⟨made, hcalls, hmade, hrenews⟩ := exists_renews_of_loaded hl threads contextSize
    rw [hconfig] at hcalls hrenews
    exact ⟨before, path, since, l₁, made, hlast, hl₁, hmodel, hsummary, hcalls, hmade, hrenews⟩
  · intro path summary h
    obtain ⟨l, hl, hnew, hsummary, hcalls⟩ := exists_isNew_of_unload h
    rw [hoptions] at hnew hcalls
    exact ⟨l, hl, hnew, hsummary, hcalls⟩

/-- Threads are asked for, then places, then neither: the third context has both, and the capacity
that the options ask for.  In the end a load begins again. -/
theorem reloads_accumulate_of_three_requests :
    let script : Script := {}
    let options : SessionOptions := { context := { threads := some 4, batchCapacity := 16 } }
    let config : ContextConfig := { threads := some 0, contextSize := 64, batchCapacity := 16 }
    let ops : List Operation :=
      [.load "model", .reload (some 0) none, .prefill "a" false 8, .reload none (some 64)]
    let s := (observed (E := script.engine) options ({} : Script.World)).after ops
    (s.perform (.reload none none)).2.calls = s.calls ++ [.newContext config true] ∧
      config.resolvedThreads 8 = 1 ∧ config.resolvedContextSize = 512 ∧
      (∃ l l' : Loaded script.engine.recorded, s.phase = .loaded l ∧
        (s.perform (.reload none none)).2.phase = .loaded l' ∧ l.Renews l' config) ∧
      ∃ l : Loaded script.engine.recorded, (s.unload.load "other").2.phase = .loaded l ∧
        l.IsNew options := by
  intro script options config ops s
  have hcalls : (s.perform (.reload none none)).2.calls =
      s.calls ++ [.newContext config true] := by decide +kernel
  have hloaded : s.loaded?.isSome = true := by decide +kernel
  have hagain : (s.unload.load "other").1 = .ok (Script.summary "other") := by decide +kernel
  obtain ⟨l, hl⟩ := Option.isSome_iff_exists.1 hloaded
  have hphase : s.phase = .loaded l := phase_eq_of_loaded? hl
  obtain ⟨-, -, hreload, hload⟩ := reloads_accumulate (E := script.engine) options
    ({} : Script.World) ops
  obtain ⟨before, path, since, l₁, made, -, -, -, -, hcalls', -, hrenews⟩ :=
    hreload l none none hphase
  have hsame : s.calls ++ [.newContext config true] = s.calls ++ [.newContext _ made] :=
    hcalls.symm.trans hcalls'
  rw [List.append_right_inj, List.singleton_inj, EngineCall.newContext.injEq] at hsame
  obtain ⟨hconfig, hmade⟩ := hsame
  obtain ⟨l', hl', hrenewed⟩ := hrenews hmade.symm
  rw [← hconfig] at hrenewed
  obtain ⟨fresh, hfresh, hnew, -, -⟩ := hload "other" (Script.summary "other") hagain
  refine ⟨hcalls, rfl, rfl, ⟨l, l', hphase, ?_, hrenewed⟩, fresh, ?_, hnew⟩
  · unfold s
    exact hl'
  · unfold s
    exact hfresh

end Session
end LlmSession
