import LlmSession.Proofs.Session.Draws
import LlmSession.Proofs.Stop.Preparation
import Mathlib.Control.Monad.Basic

/-!
# Phases and refusals

A session is idle, loaded or faulted.  This file says which operations change that, and that an
operation which makes no sense in the present state is refused without a trace: the session after it
is the session before it, and the engine was not asked for anything.

## Why it takes more than looking at the guards

Every operation begins with its guards, and a guard that fails does nothing.  But a refusal is an
error like others, and a caller sees only the error.  What is proved here is that no other way to
fail looks like a refusal: not a failed pass, whatever the engine says about it, not a batch that is
full, and not a turn that was lost.  Only the engine itself could give such an error for one of its
own failures (`Engine.FailsWith`), and an engine does not: what it has to say is what it could not
do.  A benchmark is apart, since it interrupts the turn before it looks at the shape that it is
given.

## Main statements

* `Session.Performs.phase_ne_iff`: the ways to another phase.
* `Session.Performs.eq_of_isRefusal`: a refusal changes nothing.
* `Session.after_accepted`: a run is the same without what was refused.
* `Session.phase_machine`: both, with what a failed load leaves.
-/

namespace LlmSession

/-! ## Errors of the engine -/

/-- An error that the engine itself gives.  Those of a pass are left out, since they reach nobody
as they are. -/
inductive Engine.FailsWith (E : Engine) (e : SessionError) : Prop where
  | loadModel {path : String} {gpuLayers : UInt32} {w w' : E.World}
    (h : E.loadModel path gpuLayers w = (.error e, w'))
  | newContext {model : E.Model} {config : ContextConfig} {w w' : E.World}
    (h : E.newContext model config w = (.error e, w'))
  | tokenize {context : E.Context} {text : String} {addSpecial parseControl : Bool}
    {w w' : E.World} (h : E.tokenize context text addSpecial parseControl w = (.error e, w'))
  | detokenize {context : E.Context} {token : Token} (h : E.detokenize context token = .error e)

/-- An engine under observation fails as the engine does. -/
theorem Engine.FailsWith.of_recorded {E : Engine} {e : SessionError}
    (h : E.recorded.FailsWith e) : E.FailsWith e := by
  cases h with
  | @loadModel path gpuLayers w _ h =>
    have hfst : (E.loadModel path gpuLayers (show E.World × Array EngineCall from w).1).1 =
        .error e := congrArg Prod.fst h
    exact .loadModel (Prod.ext hfst rfl)
  | @newContext model config w _ h =>
    have hfst : (E.newContext model config (show E.World × Array EngineCall from w).1).1 =
        .error e := congrArg Prod.fst h
    exact .newContext (Prod.ext hfst rfl)
  | @tokenize context text addSpecial parseControl w _ h =>
    have hfst : (E.tokenize context text addSpecial parseControl
        (show E.World × Array EngineCall from w).1).1 = .error e := congrArg Prod.fst h
    exact .tokenize (Prod.ext hfst rfl)
  | detokenize h => exact .detokenize h

/-- The failures of a scripted engine are never refusals. -/
theorem Script.not_isRefusal_of_failsWith {s : Script} {e : SessionError}
    (h : s.engine.FailsWith e) : ¬ e.IsRefusal := by
  rintro ⟨operation, state, rfl⟩
  cases h with
  | loadModel h =>
    simp only [engine] at h
    split at h <;> cases h
  | newContext h =>
    simp only [engine, Script.newContext] at h
    split at h <;> cases h
  | tokenize h =>
    simp only [engine, Script.tokenize] at h
    split at h <;> cases h
  | detokenize h =>
    simp only [engine] at h
    split at h <;> cases h

namespace Loaded

variable {E : Engine} {l l' : Loaded E} {w w' : E.World} {e : SessionError}

theorem failsWith_of_prepareStop (h : l.prepareStop w = (.error e, w')) : E.FailsWith e := by
  obtain ⟨text, w₁, w₂, htext⟩ := StopConditions.exists_of_prepare_eq_error h
  exact .tokenize htext

variable (hE : ∀ e, E.FailsWith e → ¬ e.IsRefusal)
include hE

/-- A turn that cannot begin is no refusal. -/
theorem Prefills.not_isRefusal {rejectLongPrompts : Bool} {id : Nat} {prompt : String}
    {parseControl : Bool} {maxNewTokens : Nat}
    (h : l.Prefills rejectLongPrompts id prompt parseControl maxNewTokens w (.error e, l', w')) :
    ¬ e.IsRefusal := by
  cases h with
  | unprepared hstop => exact hE e (failsWith_of_prepareStop hstop)
  | unread hstop htokens => exact hE e (.tokenize htokens)
  | empty hstop htokens => exact nofun
  | refused hstop htokens hne hreport hrefused =>
    rcases PrefillReport.refusal?_cases hrefused with ⟨rfl, -⟩ | ⟨rfl, -⟩ <;> exact nofun
  | lost hstop htokens hne hreport htried hpasses => exact Engine.not_isRefusal_of_submitAll hpasses

/-- A turn that is lost is no refusal. -/
theorem Steps.not_isRefusal {limit : LengthLimit} {t : Turn}
    (h : l.Steps limit t w (.error e, l', w')) : ¬ e.IsRefusal := by
  cases h with
  | noBytes hv hd => exact hE e (.detokenize hd)
  | lost hv hd hm hp => exact Engine.not_isRefusal_of_submitSlots hp

end Loaded

/-- Whether an operation looks at its guards before all else. -/
def Operation.isGuarded : Operation → Bool
  | .benchmark _ => false
  | _ => true

namespace Session

variable {E : Engine} {s : Session E} {op : Operation}
  {result : Except SessionError Answer × Session E}

theorem Allocates.not_isRefusal (hE : ∀ e, E.FailsWith e → ¬ e.IsRefusal)
    {options : SessionOptions} {path : String} {w w' : E.World} {e : SessionError}
    (h : Allocates options path w (.error e, w')) : ¬ e.IsRefusal := by
  cases h with
  | noModel hm => exact hE e (.loadModel hm)
  | noContext hm hc => exact hE e (.newContext hc)
  | noBatch hm hc hb => exact TokenBatch.not_isRefusal_of_allocate hb

/-! ## Refusals -/

/-- **A refusal changes nothing.** -/
theorem Performs.eq_of_isRefusal (hE : ∀ e, E.FailsWith e → ¬ e.IsRefusal)
    (hp : s.Performs op result) (hop : op.isGuarded = true) {e : SessionError}
    (h : result.1 = .error e) (he : e.IsRefusal) : result.2 = s := by
  induction hp with
  | notIdle _ => rfl
  | notLoaded _ _ => rfl
  | noTurn _ _ => rfl
  | replaced _ _ => rfl
  | finished _ _ _ => rfl
  | loadFailed _ ha =>
    cases h
    exact absurd he (ha.not_isRefusal hE)
  | faulted _ hc =>
    cases h
    exact absurd he (hE e (.newContext hc))
  | notBegun _ hp =>
    cases h
    exact absurd he (hp.not_isRefusal hE)
  | @stepped l l' t outcome w hl ht hf hstep =>
    cases outcome with
    | error e' =>
      cases h
      exact absurd he (hstep.not_isRefusal hE)
    | ok step => exact nomatch h
  | stepFor _ _ ih => exact ih rfl h
  | measured _ _ => exact nomatch hop
  | loaded _ _ => exact nomatch h
  | reloaded _ _ => exact nomatch h
  | begun _ _ => exact nomatch h
  | cleared _ _ => exact nomatch h
  | unloaded => exact nomatch h

/-- Whether an answer is a refusal. -/
def isRefused : Except SessionError Answer → Bool
  | .error (.invalidState _ _) => true
  | _ => false

theorem exists_of_isRefused {answer : Except SessionError Answer} (h : isRefused answer = true) :
    ∃ e, answer = .error e ∧ e.IsRefusal := by
  unfold isRefused at h
  split at h
  · exact ⟨_, rfl, _, _, rfl⟩
  · exact nomatch h

/-- The operations of a run that were not refused. -/
def accepted (s : Session E) : List Operation → List Operation
  | [] => []
  | op :: ops =>
    if op.isGuarded && isRefused (s.perform op).1 then (s.perform op).2.accepted ops
    else op :: (s.perform op).2.accepted ops

/-- **A run is the same without what was refused**, for the session and for its engine. -/
theorem after_accepted (hE : ∀ e, E.FailsWith e → ¬ e.IsRefusal) (s : Session E)
    (ops : List Operation) : s.after (s.accepted ops) = s.after ops := by
  induction ops generalizing s with
  | nil => rfl
  | cons op ops ih =>
    rw [accepted, after]
    split
    · next hrefused =>
      rw [Bool.and_eq_true] at hrefused
      obtain ⟨e, herror, he⟩ := exists_of_isRefused hrefused.2
      rw [(s.performs op).eq_of_isRefusal hE hrefused.1 herror he]
      exact ih s
    · exact ih _

/-! ## Phases -/

/-- The three ways to another phase. -/
inductive Moves (s : Session E) :
    Operation → Except SessionError Answer × Session E → Prop where
  /-- A model is loaded. -/
  | loads {path : String} {l : Loaded E} {w : E.World} (h : s.phase = .idle)
    (ha : Allocates s.options path s.world (.ok l, w)) :
    Moves s (.load path) (.ok (.loaded l.summary), { s with world := w, phase := .loaded l })
  /-- The context was given up, and there is no new one. -/
  | faults {l : Loaded E} {threads contextSize : Option UInt32} {e : SessionError} {w : E.World}
    (hl : s.phase = .loaded l)
    (hc : E.newContext l.model (reconfigure l.config threads contextSize) s.world = (.error e, w)) :
    Moves s (.reload threads contextSize)
      (.error e, { s with world := w, phase := .faulted l.model e.message })
  /-- All is given up. -/
  | unloads (h : s.phase ≠ .idle) : Moves s .unload (.ok .done, { s with phase := .idle })

theorem Moves.phase_ne (h : s.Moves op result) : result.2.phase.name ≠ s.phase.name := by
  cases h with
  | loads h _ =>
    rw [h]
    exact show "loaded" ≠ "idle" by decide
  | faults hl _ =>
    rw [hl]
    exact show "faulted" ≠ "loaded" by decide
  | unloads h =>
    cases hphase : s.phase with
    | idle => exact absurd hphase h
    | loaded l => exact show "idle" ≠ "loaded" by decide
    | faulted model reason => exact show "idle" ≠ "faulted" by decide

/-- **The phase changes in three ways only**, and in each of them it does. -/
theorem Performs.phase_ne_iff (hp : s.Performs op result) :
    result.2.phase.name ≠ s.phase.name ↔ s.Moves op result := by
  refine ⟨?_, Moves.phase_ne⟩
  induction hp with
  | loaded h ha => exact fun _ => .loads h ha
  | faulted hl hc => exact fun _ => .faults hl hc
  | unloaded =>
    intro hne
    refine .unloads fun hidle => hne ?_
    rw [hidle]
    rfl
  | stepFor _ _ ih => exact fun hne => nomatch ih hne
  | notIdle _ => exact absurd rfl
  | notLoaded _ _ => exact absurd rfl
  | noTurn _ _ => exact absurd rfl
  | replaced _ _ => exact absurd rfl
  | finished _ _ _ => exact absurd rfl
  | loadFailed _ _ => exact absurd rfl
  | reloaded hl _ => exact absurd (by rw [hl]; rfl)
  | notBegun hl _ => exact absurd (by rw [hl]; rfl)
  | begun hl _ => exact absurd (by rw [hl]; rfl)
  | stepped hl _ _ _ => exact absurd (by rw [hl]; rfl)
  | cleared hl _ => exact absurd (by rw [hl]; rfl)
  | measured hl _ => exact absurd (by rw [hl]; rfl)

/-- A load that fails leaves an idle session as it was, but for what the engine remembers. -/
theorem Performs.eq_of_load_error {path : String} {e : SessionError}
    (hp : s.Performs (.load path) result) (hidle : s.phase = .idle) (h : result.1 = .error e) :
    result.2 = { s with world := result.2.world } := by
  cases hp with
  | notIdle hne => exact absurd hidle hne
  | notLoaded hname _ => exact nomatch hname
  | loadFailed _ _ => rfl
  | loaded _ _ => exact nomatch h

/-- An idle session has a model as soon as the engine gives all that it needs. -/
theorem load_of_idle {path : String} {l : Loaded E} {w : E.World} (hidle : s.phase = .idle)
    (ha : allocate s.options path s.world = (.ok l, w)) :
    s.load path = (.ok l.summary, { s with world := w, phase := .loaded l }) := by
  simp only [load, hidle, ha]

theorem exists_loaded_of_turn?_ne_none (h : s.turn? ≠ none) : ∃ l, s.phase = .loaded l := by
  obtain ⟨t, ht⟩ := Option.ne_none_iff_exists'.1 h
  obtain ⟨l, -, hl, -⟩ := exists_loaded_of_turn? ht
  exact ⟨l, hl⟩

/-- **The phases of a session, and what is refused in them.**  The phase changes by a load, by a new
context that could not be had, and by unloading.  There is a turn only while a model is loaded.  A
load that fails leaves the session idle, and the next one is not the worse for it.  And whatever is
refused, with the one exception of a benchmark, leaves all as it was and asks the engine for
nothing. -/
theorem phase_machine (hE : ∀ e, E.FailsWith e → ¬ e.IsRefusal) (s : Session E.recorded)
    (op : Operation) :
    ((s.perform op).2.phase.name ≠ s.phase.name ↔ s.Moves op (s.perform op)) ∧
    (s.turn? ≠ none → ∃ l, s.phase = .loaded l) ∧
    (∀ path e, s.phase = .idle → (s.load path).1 = .error e →
      (s.load path).2.phase = .idle ∧ (s.load path).2.turn? = none ∧
        (s.load path).2.nextTurnId = s.nextTurnId ∧
        ∀ path' l w, allocate s.options path' (s.load path).2.world = (.ok l, w) →
          (s.load path).2.load path' =
            (.ok l.summary, { s with world := w, phase := .loaded l })) ∧
    ∀ operation state, op.isGuarded = true →
      (s.perform op).1 = .error (.invalidState operation state) →
      (s.perform op).2 = s ∧ (s.perform op).2.calls = s.calls := by
  refine ⟨(s.performs op).phase_ne_iff, exists_loaded_of_turn?_ne_none, ?_, ?_⟩
  · intro path e hidle h
    have hfailed : (s.load path).2 = { s with world := (s.load path).2.world } :=
      (s.performs (.load path)).eq_of_load_error hidle (by rw [perform, h]; rfl)
    generalize (s.load path).2 = s' at hfailed ⊢
    rw [hfailed]
    refine ⟨hidle, ?_, rfl, fun path' l w ha => load_of_idle hidle ha⟩
    simp only [turn?, loaded?, hidle, Option.bind_none]
  · intro operation state hop h
    have heq : (s.perform op).2 = s :=
      (s.performs op).eq_of_isRefusal (fun e he => hE e he.of_recorded) hop h ⟨_, _, rfl⟩
    exact ⟨heq, by rw [heq]⟩

/-- The engine gives one context only.  A step for the first turn is refused during the second; a
new context cannot be had; and after unloading the next load fails as well. -/
theorem phase_machine_of_last_context :
    let script : Script := { contextsBeforeFailure := some 1 }
    let s := (observed (E := script.engine) {} ({} : Script.World)).after
      [.load "model", .prefill "a" false 8, .prefill "b" false 8]
    let idle := s.after [.reload none none, .unload]
    ((s.perform (.stepFor 1)).2 = s ∧ (s.perform (.stepFor 1)).2.calls = s.calls) ∧
      s.Moves (.reload none none) (s.perform (.reload none none)) ∧
      (idle.load "model").1 = .error (.contextCreateFailed "out of memory") ∧
      (idle.load "model").2.phase = .idle := by
  intro script s idle
  have hE : ∀ e, script.engine.FailsWith e → ¬ e.IsRefusal :=
    fun e he => Script.not_isRefusal_of_failsWith he
  have hreplaced : (s.decodeStepFor 1).1 = .error (.invalidState "continue a replaced turn"
      "turn 1 was replaced by turn 2") := by decide +kernel
  have hfaulted : (s.perform (.reload none none)).2.phase.name ≠ s.phase.name := by decide +kernel
  have hfails : (idle.load "model").1 = .error (.contextCreateFailed "out of memory") := by
    decide +kernel
  obtain ⟨-, -, -, hrefused⟩ := phase_machine hE s (.stepFor 1)
  obtain ⟨hmoves, -⟩ := phase_machine hE s (.reload none none)
  obtain ⟨-, -, hload, -⟩ := phase_machine hE idle .unload
  exact ⟨hrefused _ _ rfl (by rw [perform, hreplaced]; rfl), hmoves.1 hfaulted, hfails,
    (hload "model" _ rfl hfails).1⟩

end Session
end LlmSession
