import LlmSession.Proofs.Session.Calls
import LlmSession.Proofs.Worker.Requests

/-!
# The prompts that an engine gets

A session has its engine read two kinds of text.  Stop strings are read as they are, and a prompt is
read with a token in front that opens it.  So the transcript shows which texts were prompts
(`EngineCall.prompt?`), and a turn that begins shows one, with its tokens in the passes that follow
(`EngineCall.Prefill`).

## Main statements

* `Loaded.Prefills.attempt`: the beginning of a turn has its own prompt read, if any.
* `Worker.attempt_of_send`: the prompt of a message is that of its conversation, with the message in
  it.
-/

namespace LlmSession

namespace EngineCall

/-- The prompt that is read by a call. -/
def prompt? : EngineCall → Option String
  | .tokenize text true _ _ => some text
  | _ => none

/-- Among these calls one prompt was read, and then put into the cache, all of it. -/
def Prefill (prompt : String) (parseControl : Bool) (calls : List EngineCall) : Prop :=
  ∃ (setup : List EngineCall) (tokens : List Token) (passes : List (List BatchSlot)),
    calls = setup ++ .tokenize prompt true parseControl (some tokens) ::
      passes.map (.decode · true) ∧
    setup.filterMap prompt? = [] ∧ passes.flatten = promptSlots tokens

variable {prompt : String} {parseControl : Bool} {calls : List EngineCall}

theorem IsPass.prompt?_eq_none {call : EngineCall} (h : call.IsPass) : call.prompt? = none := by
  cases call with
  | decode _ _ => rfl
  | _ => exact h.elim

theorem IsDraw.prompt?_eq_none {call : EngineCall} (h : call.IsDraw) : call.prompt? = none := by
  cases call with
  | sample _ => rfl
  | _ => exact h.elim

/-- That prompt is the only one. -/
theorem Prefill.prompts_eq (h : Prefill prompt parseControl calls) :
    calls.filterMap prompt? = [prompt] := by
  obtain ⟨setup, tokens, passes, rfl, hsetup, -⟩ := h
  have hpasses : (passes.map (.decode · true)).filterMap prompt? = [] := by
    rw [List.filterMap_map]
    exact List.filterMap_eq_nil_iff.2 fun _ _ => rfl
  rw [List.filterMap_append, hsetup, List.filterMap_cons, hpasses]
  rfl

/-- Calls before that, which read no prompt, make no difference. -/
theorem Prefill.append_left (h : Prefill prompt parseControl calls) {setup : List EngineCall}
    (hsetup : setup.filterMap prompt? = []) : Prefill prompt parseControl (setup ++ calls) := by
  obtain ⟨setup', tokens, passes, rfl, hsetup', hpasses⟩ := h
  refine ⟨setup ++ setup', tokens, passes, (List.append_assoc _ _ _).symm, ?_, hpasses⟩
  rw [List.filterMap_append, hsetup, hsetup']
  rfl

/-- What calls may do with a prompt: they read no other, and if the turn began they put it into the
cache. -/
structure Attempt (prompt : String) (parseControl : Bool) (begun : Prop)
    (calls : List EngineCall) : Prop where
  prompts : calls.filterMap prompt? = [] ∨ calls.filterMap prompt? = [prompt]
  prefill : begun → Prefill prompt parseControl calls

theorem Attempt.append_left {begun : Prop} (h : Attempt prompt parseControl begun calls)
    {setup : List EngineCall} (hsetup : setup.filterMap prompt? = []) :
    Attempt prompt parseControl begun (setup ++ calls) := by
  refine ⟨?_, fun hbegun => (h.prefill hbegun).append_left hsetup⟩
  rw [List.filterMap_append, hsetup, List.nil_append]
  exact h.prompts

theorem attempt_nil {begun : Prop} (hbegun : ¬ begun) : Attempt prompt parseControl begun [] :=
  ⟨Or.inl rfl, fun h => absurd h hbegun⟩

end EngineCall

open EngineCall

/-! ## The beginning of a turn -/

namespace Loaded

variable {E : Engine} {l l' : Loaded E.recorded} {rejectLongPrompts : Bool} {id : Nat}
  {prompt : String} {parseControl : Bool} {maxNewTokens : Nat} {w w' : E.recorded.World}

/-- No prompt is read for the stop tokens. -/
theorem onlyGot_prompt?_of_prepareStop {answer : Except SessionError StopConditions}
    (h : l.prepareStop w = (answer, w')) :
    Engine.OnlyGot (fun call => call.prompt? = none) w w' :=
  onlyGot_of_prepareStop (fun _ _ => rfl) h

/-- **The beginning of a turn** has its own prompt read, if any. -/
theorem Prefills.attempt {answer : Except SessionError PrefillReport}
    (hp : l.Prefills rejectLongPrompts id prompt parseControl maxNewTokens w (answer, l', w')) :
    ∃ new, Engine.callsIn w' = Engine.callsIn w ++ new ∧
      Attempt prompt parseControl (∃ report, answer = .ok report) new := by
  -- the stop tokens are made and the prompt is read, and what follows are passes
  have hread {stop : StopConditions} {w₁ w₂ w₃ : E.recorded.World}
      {outcome : Except SessionError (List Token)} (hstop : l.prepareStop w = (.ok stop, w₁))
      (htokens : E.recorded.tokenize l.context prompt true parseControl w₁ = (outcome, w₂))
      (hpasses : Engine.OnlyGot IsPass w₂ w₃) :
      ∃ new, Engine.callsIn w₃ = Engine.callsIn w ++ new ∧ new.filterMap prompt? = [prompt] := by
    obtain ⟨setup, hsetup, hnone⟩ := onlyGot_prompt?_of_prepareStop hstop
    obtain ⟨passes, hcalls, hall⟩ := hpasses
    refine ⟨setup ++ .tokenize prompt true parseControl outcome.toOption :: passes, ?_, ?_⟩
    · rw [hcalls, Engine.callsIn_of_tokenize htokens, hsetup]
      simp only [List.append_assoc, List.singleton_append]
    · have hmore : passes.filterMap prompt? = [] :=
        List.filterMap_eq_nil_iff.2 fun call hcall => (hall call hcall).prompt?_eq_none
      rw [List.filterMap_append, List.filterMap_eq_nil_iff.2 hnone, List.filterMap_cons, hmore]
      rfl
  cases hp with
  | unprepared hstop =>
    obtain ⟨setup, hsetup, hnone⟩ := onlyGot_prompt?_of_prepareStop hstop
    exact ⟨setup, hsetup, Or.inl (List.filterMap_eq_nil_iff.2 hnone), nofun⟩
  | unread hstop htokens =>
    obtain ⟨new, hnew, hprompts⟩ := hread hstop htokens (.refl _ _)
    exact ⟨new, hnew, Or.inr hprompts, nofun⟩
  | empty hstop htokens =>
    obtain ⟨new, hnew, hprompts⟩ := hread hstop htokens (.refl _ _)
    exact ⟨new, hnew, Or.inr hprompts, nofun⟩
  | refused hstop htokens hne hreport hrefused =>
    obtain ⟨new, hnew, hprompts⟩ := hread hstop htokens (.refl _ _)
    exact ⟨new, hnew, Or.inr hprompts, nofun⟩
  | lost hstop htokens hne hreport htried hpasses =>
    obtain ⟨new, hnew, hprompts⟩ :=
      hread hstop htokens (Engine.onlyGot_isPass_of_submitAll hpasses)
    exact ⟨new, hnew, Or.inr hprompts, nofun⟩
  | @begun stop tokens report batch context w₁ w₂ _ hstop htokens hne hreport htried hpasses =>
    obtain ⟨setup, hsetup, hnone⟩ := onlyGot_prompt?_of_prepareStop hstop
    have hprefill : Prefill prompt parseControl (setup ++ .tokenize prompt true parseControl
        (some tokens) :: (chunks l.batch.capacity (promptSlots tokens)).map (.decode · true)) :=
      ⟨setup, tokens, _, rfl, List.filterMap_eq_nil_iff.2 hnone, flatten_chunks _ _⟩
    refine ⟨_, ?_, Or.inr hprefill.prompts_eq, fun _ => hprefill⟩
    rw [Engine.callsIn_of_submitAll_eq_ok hpasses, Engine.callsIn_of_tokenize htokens, hsetup]
    simp only [List.append_assoc, List.singleton_append]
    rfl

/-- **A step** reads no prompt. -/
theorem Steps.onlyGot {limit : LengthLimit} {t : Turn} {outcome : Except SessionError Step}
    (h : l.Steps limit t w (outcome, l', w')) :
    Engine.OnlyGot (fun call => call.prompt? = none) w w' :=
  h.onlyGot_isDraw_or_isPass.mono fun _ hcall =>
    hcall.elim IsDraw.prompt?_eq_none IsPass.prompt?_eq_none

end Loaded

namespace Session

variable {E : Engine} {s s' : Session E.recorded} {prompt : String} {parseControl : Bool}
  {maxNewTokens : Nat} {answer : Except SessionError PrefillReport}

/-- The same for a session, loaded or not. -/
theorem attempt_of_prefill (h : s.prefill prompt parseControl maxNewTokens = (answer, s')) :
    ∃ new, s'.calls = s.calls ++ new ∧
      Attempt prompt parseControl (∃ report, answer = .ok report) new := by
  have hp := s.performs (.prefill prompt parseControl maxNewTokens)
  rw [perform, h] at hp
  dsimp only at hp
  cases answer with
  | error e =>
    cases hp with
    | notLoaded _ _ =>
      refine ⟨[], (List.append_nil _).symm, attempt_nil ?_⟩
      rintro ⟨_, hok⟩
      cases hok
    | notBegun _ hp => exact hp.attempt
  | ok report =>
    cases hp with
    | begun _ hp => exact hp.attempt

/-- Steps of a turn read no prompt. -/
theorem Performs.onlyGot_of_stepFor {id : Nat} {result : Except SessionError Answer}
    (h : s.Performs (.stepFor id) (result, s')) :
    Engine.OnlyGot (fun call => call.prompt? = none) s.world s'.world := by
  cases h with
  | notLoaded hname _ => exact nomatch hname
  | replaced _ _ => exact .refl _ _
  | stepFor _ hstep =>
    cases hstep with
    | notLoaded _ _ => exact .refl _ _
    | noTurn _ _ => exact .refl _ _
    | finished _ _ _ => exact .refl _ _
    | stepped _ _ _ hsteps => exact hsteps.onlyGot

theorem onlyGot_of_after_steps (s : Session E.recorded) (id n : Nat) :
    Engine.OnlyGot (fun call => call.prompt? = none) s.world
      (s.after (List.replicate n (.stepFor id))).world := by
  induction n generalizing s with
  | zero => exact .refl _ _
  | succ n ih =>
    have hstep : Engine.OnlyGot (fun call => call.prompt? = none) s.world
        (s.perform (.stepFor id)).2.world := (s.performs (.stepFor id)).onlyGot_of_stepFor
    exact hstep.trans (ih (s.perform (.stepFor id)).2)

end Session

namespace Worker

variable {E : Engine} {w w' : Worker E.recorded} {prompt : String} {parseControl : Bool}
  {maxNewTokens : Nat} {answer : Except SessionError TurnStream}

/-- No prompt is read while the cache is emptied. -/
theorem exists_calls_ready (w : Worker E.recorded) :
    ∃ setup, w.ready.calls = w.session.calls ++ setup ∧ setup.filterMap prompt? = [] := by
  unfold ready
  split
  · unfold Session.clearCache
    split
    · next l hl => exact ⟨[.clearMemory true], Engine.callsIn_of_clearMemory rfl, rfl⟩
    · exact ⟨[], (List.append_nil _).symm, rfl⟩
  · exact ⟨[], (List.append_nil _).symm, rfl⟩

/-- **A turn that is to be streamed** has its own prompt read, if any. -/
theorem attempt_of_streamTurn
    (h : w.streamTurn prompt parseControl maxNewTokens = (answer, w')) :
    ∃ new, w'.session.calls = w.session.calls ++ new ∧
      Attempt prompt parseControl (∃ stream, answer = .ok stream) new := by
  by_cases hready : w.CanReady
  · rcases hprefill : w.ready.prefill prompt parseControl maxNewTokens with ⟨outcome, s'⟩
    rw [streamTurn_of_canReady hready, hprefill] at h
    cases h
    obtain ⟨setup, hsetup, hnone⟩ := w.exists_calls_ready
    obtain ⟨new, hnew, hprompts, hbegun⟩ := Session.attempt_of_prefill hprefill
    have hattempt : Attempt prompt parseControl
        (∃ stream, (outcome.map fun report => ({ report } : TurnStream)) = .ok stream) new := by
      refine ⟨hprompts, fun ⟨stream, hstream⟩ => hbegun ?_⟩
      cases outcome with
      | error e => exact nomatch hstream
      | ok report => exact ⟨report, rfl⟩
    exact ⟨setup ++ new, by rw [hnew, hsetup, List.append_assoc], hattempt.append_left hnone⟩
  · rw [streamTurn_of_not_canReady hready] at h
    cases h
    exact ⟨[], (List.append_nil _).symm, attempt_nil nofun⟩

/-- A message that is sent has the prompt of its conversation read, with the message in it. -/
theorem attempt_of_send {c c' : Conversation} {text : String}
    (h : w.send c text = (answer, c', w')) :
    ∃ new, w'.session.calls = w.session.calls ++ new ∧
      Attempt (c.push { role := .user, content := text }).render w.defaults.parseSpecial
        (∃ stream, answer = .ok stream) new := by
  unfold send at h
  dsimp only at h
  split at h
  · next hstream =>
    cases h
    exact attempt_of_streamTurn hstream
  · next hstream =>
    cases h
    exact attempt_of_streamTurn hstream

end Worker
end LlmSession
