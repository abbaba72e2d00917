import LlmSession.Proofs.Session.Draws

/-!
# The calls of a turn

Which calls an engine may get when a turn begins or takes a step, whatever comes of it.  The
beginning of a turn has two parts.  The stop tokens are made first, and if they cannot be made that
is all.  Then the prompt is read and passes are made, and by then the stop tokens are there, also if
no turn begins.

## Main statements

* `Loaded.Prefills.exists_attempt`: the two parts of the beginning of a turn.
* `Loaded.Prefills.onlyGot`, `Loaded.Steps.onlyGot_isDraw_or_isPass`: the calls of a turn.
* `Loaded.Prefills.keeps`, `Loaded.Steps.keeps`: what a turn leaves alone.
-/

namespace LlmSession

namespace EngineCall

/-- A prompt that is to be turned into tokens. -/
def IsPrompt : EngineCall → Prop
  | .tokenize _ true _ _ => True
  | _ => False

/-- A context that is asked for, whether it can be had or not. -/
def AsksContext : EngineCall → Prop
  | .newContext _ _ => True
  | _ => False

variable {call : EngineCall}

theorem IsPrompt.isReading (h : call.IsPrompt) : call.IsReading := by
  cases call with
  | tokenize text addSpecial parseControl answer => trivial
  | _ => exact h.elim

theorem IsReading.not_asksContext (h : call.IsReading) : ¬ call.AsksContext := by
  cases call with
  | newContext config created => exact h.elim
  | _ => exact id

theorem TouchesCache.not_asksContext (h : call.TouchesCache) : ¬ call.AsksContext := by
  cases call with
  | newContext config created => exact h.elim
  | _ => exact id

theorem IsDraw.not_asksContext (h : call.IsDraw) : ¬ call.AsksContext := by
  cases call with
  | newContext config created => exact h.elim
  | _ => exact id

end EngineCall

open EngineCall

namespace Loaded

variable {E : Engine} {l l' : Loaded E.recorded} {w w' : E.recorded.World}

section

variable {rejectLongPrompts : Bool} {id : Nat} {prompt : String} {parseControl : Bool}
  {maxNewTokens : Nat} {answer : Except SessionError PrefillReport}

/-- **The two parts of the beginning of a turn.**  The stop conditions after it are those after the
attempt to make the set of stop tokens, also if no turn begins. -/
theorem Prefills.exists_attempt
    (hp : l.Prefills rejectLongPrompts id prompt parseControl maxNewTokens w (answer, l', w')) :
    ∃ made w₁, l.stop.attempt (fun text => E.recorded.tokenize l.context text false true) w =
        (made, l'.stop, w₁) ∧
      Engine.OnlyGot (fun call => call.IsPrompt ∨ call.IsPass) w₁ w' := by
  have hread {w₁ w₂ : E.recorded.World} {outcome : Except SessionError (List Token)}
      (h : E.recorded.tokenize l.context prompt true parseControl w₁ = (outcome, w₂)) :
      Engine.OnlyGot (fun call => call.IsPrompt ∨ call.IsPass) w₁ w₂ :=
    Engine.onlyGot_of_one (Engine.callsIn_of_tokenize h) (Or.inl trivial)
  cases hp with
  | unprepared hstop =>
    exact ⟨_, _, StopConditions.attempt_of_prepare_eq_error hstop, .refl _ _⟩
  | unread hstop htokens =>
    exact ⟨_, _, StopConditions.attempt_of_prepare_eq_ok hstop, hread htokens⟩
  | empty hstop htokens =>
    exact ⟨_, _, StopConditions.attempt_of_prepare_eq_ok hstop, hread htokens⟩
  | refused hstop htokens _ _ _ =>
    exact ⟨_, _, StopConditions.attempt_of_prepare_eq_ok hstop, hread htokens⟩
  | lost hstop htokens _ _ _ hpasses =>
    exact ⟨_, _, StopConditions.attempt_of_prepare_eq_ok hstop, (hread htokens).trans
      ((Engine.onlyGot_isPass_of_submitAll hpasses).mono fun _ => Or.inr)⟩
  | begun hstop htokens _ _ _ hpasses =>
    exact ⟨_, _, StopConditions.attempt_of_prepare_eq_ok hstop, (hread htokens).trans
      ((Engine.onlyGot_isPass_of_submitAll hpasses).mono fun _ => Or.inr)⟩

/-- **The beginning of a turn** reads texts and makes passes. -/
theorem Prefills.onlyGot
    (hp : l.Prefills rejectLongPrompts id prompt parseControl maxNewTokens w (answer, l', w')) :
    Engine.OnlyGot (fun call => call.IsReading ∨ call.IsPass) w w' := by
  obtain ⟨made, w₁, hattempt, hrest⟩ := hp.exists_attempt
  exact (Engine.onlyGot_of_attempt (fun _ _ => Or.inl trivial) hattempt).trans
    (hrest.mono fun _ h => h.imp_left IsPrompt.isReading)

end

/-- **A step** draws a token and may make a pass. -/
theorem Steps.onlyGot_isDraw_or_isPass {limit : LengthLimit} {t : Turn}
    {outcome : Except SessionError Step} (h : l.Steps limit t w (outcome, l', w')) :
    Engine.OnlyGot (fun call => call.IsDraw ∨ call.IsPass) w w' := by
  have hdraw : Engine.OnlyGot (fun call => call.IsDraw ∨ call.IsPass) w (l.drawnWorld w) :=
    Engine.onlyGot_of_one (Engine.callsIn_sample l.sampler l.context w) (Or.inl trivial)
  cases h with
  | verdict _ => exact hdraw
  | noBytes _ _ => exact hdraw
  | marker _ _ _ => exact hdraw
  | taken _ _ _ hpass =>
    exact hdraw.trans ((Engine.onlyGot_isPass_of_submitSlots hpass).mono fun _ => Or.inr)
  | lost _ _ _ hpass =>
    exact hdraw.trans ((Engine.onlyGot_isPass_of_submitSlots hpass).mono fun _ => Or.inr)

end Loaded

/-! ## What a turn leaves alone -/

/-- The model and how its context was created are the same. -/
structure Loaded.Keeps {E : Engine} (l l' : Loaded E) : Prop where
  model_eq : l'.model = l.model
  summary_eq : l'.summary = l.summary
  config_eq : l'.config = l.config

namespace Loaded

variable {E : Engine} {l l' : Loaded E} {w w' : E.World}

theorem Prefills.keeps {rejectLongPrompts : Bool} {id : Nat} {prompt : String}
    {parseControl : Bool} {maxNewTokens : Nat} {answer : Except SessionError PrefillReport}
    (hp : l.Prefills rejectLongPrompts id prompt parseControl maxNewTokens w (answer, l', w')) :
    l.Keeps l' := by
  cases hp <;> exact ⟨rfl, rfl, rfl⟩

theorem Steps.keeps {limit : LengthLimit} {t : Turn} {outcome : Except SessionError Step}
    (h : l.Steps limit t w (outcome, l', w')) : l.Keeps l' := by
  cases h <;> exact ⟨rfl, rfl, rfl⟩

/-- The stop tokens are made when a turn begins, and not in its steps. -/
theorem Steps.stop_eq {limit : LengthLimit} {t : Turn} {outcome : Except SessionError Step}
    (h : l.Steps limit t w (outcome, l', w')) : l'.stop = l.stop := by
  cases h <;> rfl

end Loaded
end LlmSession
