import LlmSession.Proofs.Session.Calls

/-!
# The set of stop tokens

A session makes the set of tokens that end a reply when the first turn begins on a context, and any
turn may be the first for which all stop strings can be read.  The attempts before it may have
failed at any of the strings, and the turns for which they were made did not begin; but a turn may
also fail to begin for other reasons once the set is there.  With a new context all begins anew,
since its tokens need not be those of the old one.

## The invariant

Stop strings are read without a token in front, and prompts with one, so the transcript shows which
texts were stop strings.  Those that were read on the live context are a number of attempts that
failed and, if the set is there, one that did not, after which there is none; and the set is that of
this one attempt (`EngineCall.StopReadings`).  A turn begins only with the set there, and so it is
there whenever a token is drawn.

## Main statements

* `StopConditions.KnownBy.attempt`: an attempt to make the set, for whichever turn.
* `Session.KnowsStops.performs`, `Session.KnowsStops.after`: an operation, and a run.
* `Session.stop_tokens_of_first_complete_attempt`: attempts by themselves, and in a session.
-/

namespace LlmSession

namespace EngineCall

/-- A stop string that is to be turned into tokens. -/
def isStopReading : EngineCall → Bool
  | .tokenize _ false true _ => true
  | _ => false

/-- An attempt that came to a stop string which could not be read. -/
def FailedAttempt (stopStrings : List String) (calls : List EngineCall) : Prop :=
  ∃ (read : List (String × List Token)) (text : String) (rest : List String),
    stopStrings = read.map Prod.fst ++ text :: rest ∧
      calls = read.map reading ++ [.tokenize text false true none]

/-- The readings of stop strings on one context, and the tokens that came of them: attempts that
failed, and then at most one that did not. -/
inductive StopReadings (stopStrings : List String) :
    List EngineCall → Option (List Token) → Prop where
  | untried : StopReadings stopStrings [] none
  | failed {calls new : List EngineCall} (h : StopReadings stopStrings calls none)
    (hnew : FailedAttempt stopStrings new) : StopReadings stopStrings (calls ++ new) none
  | complete {calls : List EngineCall} (read : List (String × List Token))
    (h : StopReadings stopStrings calls none) (hread : read.map Prod.fst = stopStrings) :
    StopReadings stopStrings (calls ++ read.map reading) (some (read.map Prod.snd).flatten)

variable {stopStrings : List String} {calls new : List EngineCall}

theorem isStopReading_of_mem_map_reading {read : List (String × List Token)} :
    ∀ call ∈ read.map reading, call.isStopReading = true := by
  intro call hcall
  obtain ⟨p, -, rfl⟩ := List.mem_map.1 hcall
  rfl

theorem FailedAttempt.isStopReading (h : FailedAttempt stopStrings new) :
    ∀ call ∈ new, call.isStopReading = true := by
  obtain ⟨read, text, rest, -, rfl⟩ := h
  intro call hcall
  rcases List.mem_append.1 hcall with hcall | hcall
  · exact isStopReading_of_mem_map_reading call hcall
  · rw [List.mem_singleton.1 hcall]
    rfl

/-- A set that is there was made by one attempt, and by the last. -/
theorem StopReadings.exists_of_some {tokens : List Token}
    (h : StopReadings stopStrings calls (some tokens)) :
    ∃ (failed : List EngineCall) (read : List (String × List Token)),
      calls = failed ++ read.map reading ∧ StopReadings stopStrings failed none ∧
        read.map Prod.fst = stopStrings ∧ tokens = (read.map Prod.snd).flatten := by
  cases h with
  | complete read h hread => exact ⟨_, read, rfl, h, hread, rfl⟩

/-- Neither a context that is created nor a stop string that is to be read. -/
def IsAside (call : EngineCall) : Prop := ¬ call.CreatesContext ∧ call.isStopReading = false

theorem IsPrompt.isAside {call : EngineCall} (h : call.IsPrompt) : call.IsAside := by
  refine ⟨h.isReading.not_createsContext, ?_⟩
  cases call with
  | tokenize text addSpecial parseControl answer =>
    cases addSpecial with
    | true => rfl
    | false => exact h.elim
  | _ => exact h.elim

theorem TouchesCache.isAside {call : EngineCall} (h : call.TouchesCache) : call.IsAside := by
  refine ⟨h.not_createsContext, ?_⟩
  cases call with
  | tokenize text addSpecial parseControl answer => exact h.elim
  | _ => rfl

theorem IsDraw.isAside {call : EngineCall} (h : call.IsDraw) : call.IsAside := by
  cases call with
  | sample token => exact ⟨id, rfl⟩
  | _ => exact h.elim

end EngineCall

open EngineCall

/-! ## The conditions of one context -/

/-- The set of stop tokens is accounted for by the calls on the live context. -/
structure StopConditions.KnownBy (c : StopConditions) (stopStrings : List String)
    (since : List EngineCall) : Prop where
  stopStrings_eq : c.stopStrings = stopStrings
  readings : StopReadings stopStrings (since.filter isStopReading) c.tokens

namespace StopConditions.KnownBy

variable {E : Engine} {c c' : StopConditions} {stopStrings : List String}
  {since new : List EngineCall}

/-- On a new context nothing was read yet. -/
theorem ofLists (stopStrings markers : List String) (hnew : ∀ call ∈ new, call.IsAside) :
    (StopConditions.ofLists stopStrings markers).KnownBy stopStrings new where
  stopStrings_eq := rfl
  readings := by
    rw [List.filter_eq_nil_iff.2 fun call hcall => Bool.eq_false_iff.1 (hnew call hcall).2]
    exact .untried

/-- Calls that read no stop string make no difference. -/
theorem append (h : c.KnownBy stopStrings since) (hnew : ∀ call ∈ new, call.IsAside) :
    c.KnownBy stopStrings (since ++ new) where
  stopStrings_eq := h.stopStrings_eq
  readings := by
    rw [List.filter_append,
      List.filter_eq_nil_iff.2 fun call hcall => Bool.eq_false_iff.1 (hnew call hcall).2,
      List.append_nil]
    exact h.readings

/-- **An attempt** to make the set is accounted for, however it goes. -/
theorem attempt {context : E.recorded.Context} {w w' : E.recorded.World}
    {made : Except SessionError Unit} (h : c.KnownBy stopStrings since)
    (hattempt : c.attempt (fun text => E.recorded.tokenize context text false true) w =
      (made, c', w')) :
    ∃ new, Engine.callsIn w' = Engine.callsIn w ++ new ∧ (∀ call ∈ new, ¬ call.CreatesContext) ∧
      c'.KnownBy stopStrings (since ++ new) := by
  have hprepares := c.prepares (fun text => E.recorded.tokenize context text false true) w
  generalize hprepare :
    c.prepare (fun text => E.recorded.tokenize context text false true) w = result at hprepares
  cases hprepares with
  | there _ =>
    cases hattempt.symm.trans (attempt_of_prepare_eq_ok hprepare)
    refine ⟨[], (List.append_nil _).symm, nofun, ?_⟩
    rwa [List.append_nil]
  | made htokens hreads =>
    cases hattempt.symm.trans (attempt_of_prepare_eq_ok hprepare)
    obtain ⟨read, htexts, rfl, hcalls⟩ := Engine.exists_readings_of_readsAll hreads
    refine ⟨read.map reading, hcalls, fun call hcall => ?_, h.stopStrings_eq, ?_⟩
    · obtain ⟨p, -, rfl⟩ := List.mem_map.1 hcall
      exact id
    · have hreadings := h.readings
      rw [htokens] at hreadings
      rw [List.filter_append, List.filter_eq_self.2 isStopReading_of_mem_map_reading]
      exact .complete read hreadings (htexts.trans h.stopStrings_eq)
  | failed htokens hfails =>
    cases hattempt.symm.trans (attempt_of_prepare_eq_error hprepare)
    obtain ⟨read, text, rest, htexts, hcalls⟩ := Engine.exists_readings_of_failsOn hfails
    have hfailed : FailedAttempt stopStrings
        (read.map reading ++ [.tokenize text false true none]) :=
      ⟨read, text, rest, h.stopStrings_eq.symm.trans htexts, rfl⟩
    refine ⟨_, hcalls, fun call hcall => ?_, h.stopStrings_eq, ?_⟩
    · have hreading := hfailed.isStopReading call hcall
      cases call with
      | newContext config created => exact nomatch hreading
      | _ => exact id
    · have hreadings := h.readings
      rw [htokens] at hreadings ⊢
      rw [List.filter_append, List.filter_eq_self.2 hfailed.isStopReading]
      exact .failed hreadings hfailed

end StopConditions.KnownBy

/-! ## A session under observation -/

namespace Session

variable {E : Engine} {s : Session E.recorded}

/-- The set of stop tokens is accounted for. -/
def KnowsStops (s : Session E.recorded) : Prop :=
  ∀ l, s.phase = .loaded l →
    ∃ since, LiveSince s.calls since ∧ l.stop.KnownBy s.options.stopStrings since

/-- The context stays, and so do the stop conditions. -/
theorem KnowsStops.of_aside {s' : Session E.recorded} {l l' : Loaded E.recorded}
    (h : s.KnowsStops) (hl : s.phase = .loaded l) (hl' : s'.phase = .loaded l')
    (hoptions : s'.options = s.options) (hstop : l'.stop = l.stop)
    (hgot : Engine.OnlyGot IsAside s.world s'.world) : s'.KnowsStops := by
  intro l₁ hl₁
  cases hl'.symm.trans hl₁
  obtain ⟨since, hlive, hknown⟩ := h l hl
  obtain ⟨new, hnew, hall⟩ := hgot
  refine ⟨since ++ new, ?_, ?_⟩
  · rw [calls, hnew]
    exact hlive.append fun call hcall => (hall call hcall).1
  · rw [hoptions, hstop]
    exact hknown.append hall

/-- A turn begins, or not. -/
theorem KnowsStops.of_prefills {s' : Session E.recorded} {l l' : Loaded E.recorded}
    {rejectLongPrompts : Bool} {id : Nat} {prompt : String} {parseControl : Bool}
    {maxNewTokens : Nat} {answer : Except SessionError PrefillReport} (h : s.KnowsStops)
    (hl : s.phase = .loaded l) (hl' : s'.phase = .loaded l') (hoptions : s'.options = s.options)
    (hp : l.Prefills rejectLongPrompts id prompt parseControl maxNewTokens s.world
      (answer, l', s'.world)) : s'.KnowsStops := by
  intro l₁ hl₁
  cases hl'.symm.trans hl₁
  obtain ⟨since, hlive, hknown⟩ := h l hl
  obtain ⟨made, w₁, hattempt, more, hmore, hall⟩ := hp.exists_attempt
  obtain ⟨new, hnew, hcreates, hknown'⟩ := hknown.attempt hattempt
  have haside : ∀ call ∈ more, call.IsAside := fun call hcall =>
    (hall call hcall).elim IsPrompt.isAside fun h => h.touchesCache.isAside
  refine ⟨since ++ new ++ more, ?_, ?_⟩
  · rw [calls, hmore, hnew]
    exact (hlive.append hcreates).append fun call hcall => (haside call hcall).1
  · rw [hoptions]
    exact hknown'.append haside

/-- A context that was just created. -/
theorem knowsStops_of_created {s' : Session E.recorded} {l : Loaded E.recorded}
    {config : ContextConfig} {before after : List EngineCall}
    (hnew : s'.calls = s.calls ++ (before ++ .newContext config true :: after))
    (hafter : ∀ call ∈ after, call.IsAside) (hl : s'.phase = .loaded l)
    (hstop : l.stop = s'.options.stopConditions) : s'.KnowsStops := by
  intro l₁ hl₁
  cases hl.symm.trans hl₁
  refine ⟨after, ⟨s.calls ++ before, config, by rw [hnew, List.append_assoc],
    fun call hcall => (hafter call hcall).1⟩, ?_⟩
  rw [hstop]
  exact .ofLists _ _ hafter

/-- **An operation** keeps the account of the stop tokens. -/
theorem KnowsStops.performs {op : Operation}
    {result : Except SessionError Answer × Session E.recorded} (h : s.KnowsStops)
    (hp : s.Performs op result) : result.2.KnowsStops := by
  induction hp with
  | notIdle _ => exact h
  | notLoaded _ _ => exact h
  | noTurn _ _ => exact h
  | replaced _ _ => exact h
  | finished _ _ _ => exact h
  | stepFor _ _ ih => exact ih
  | loadFailed hidle _ => exact fun l hl => nomatch hidle.symm.trans hl
  | loaded _ ha =>
    obtain ⟨hcalls, hstop, -⟩ := callsIn_of_allocates_ok ha
    refine knowsStops_of_created hcalls (fun call hcall => ?_) rfl hstop
    rw [List.mem_singleton.1 hcall]
    exact ⟨id, rfl⟩
  | faulted _ _ => exact nofun
  | reloaded _ hc =>
    have hcalls := Engine.callsIn_of_newContext hc
    rw [← List.nil_append [_]] at hcalls
    exact knowsStops_of_created hcalls nofun rfl rfl
  | notBegun hl hp => exact h.of_prefills hl rfl rfl hp
  | begun hl hp => exact h.of_prefills hl rfl rfl hp
  | stepped hl _ _ hstep =>
    exact h.of_aside hl rfl rfl hstep.stop_eq (hstep.onlyGot_isDraw_or_isPass.mono fun _ hcall =>
      hcall.elim IsDraw.isAside fun hpass => hpass.touchesCache.isAside)
  | cleared hl hc =>
    exact h.of_aside hl rfl rfl rfl
      (Engine.onlyGot_of_one (Engine.callsIn_of_clearMemory hc) (TouchesCache.isAside trivial))
  | measured hl hb =>
    exact h.of_aside hl rfl rfl rfl
      ((Engine.onlyGot_of_benchmark hb).mono fun _ => TouchesCache.isAside)
  | unloaded => exact nofun

/-- **A run** keeps it as well. -/
theorem KnowsStops.after (h : s.KnowsStops) (ops : List Operation) : (s.after ops).KnowsStops := by
  induction ops generalizing s with
  | nil => exact h
  | cons op ops ih => exact ih (h.performs (s.performs op))

theorem knowsStops_observed (options : SessionOptions) (world : E.World) :
    (observed options world).KnowsStops := nofun

/-- Where a token is drawn, the session is loaded and the set of stop tokens is there. -/
theorem Accounted.exists_tokens_of_draw (h : s.Accounted) {op : Operation} {token : Token}
    {earlier later : List EngineCall}
    (hdraw : (s.perform op).2.calls = s.calls ++ (earlier ++ .sample token :: later)) :
    ∃ l tokens, s.phase = .loaded l ∧ l.stop.tokens = some tokens := by
  obtain ⟨new, hnew, hdraws⟩ := (h.performs (s.performs op)).1
  have hmem : EngineCall.sample token ∈ new := by
    rw [List.append_cancel_left (hnew.symm.trans hdraw)]
    exact List.mem_append_right _ List.mem_cons_self
  rcases hdraws with hnone | ⟨-, -, l, t, -, -, hl, ht, hf⟩
  · exact absurd trivial (hnone _ hmem)
  · obtain ⟨since, -, hloaded⟩ := h l hl
    obtain ⟨⟨tokens, htokens⟩, -⟩ := hloaded.running t ht hf
    exact ⟨l, tokens, hl, htokens⟩

/-- **The set of stop tokens is that of the first complete attempt.**

Take any attempts to make the set for any stop strings, with anything to read them that may fail at
any string and may remember what it was asked.  As long as all fail there is no set, nothing is kept
of them, and no token ends a reply.  Otherwise there is a first one that reads all stop strings.
Its tokens are the set, and the attempts after it find it there: they read nothing, since what reads
is in the state in which that one left it.

In a session, what was read of the stop strings on the live context is a number of failed attempts
and at most one that is complete and the last, and the set is there if that one is.  It is there
wherever a token is drawn. -/
theorem stop_tokens_of_first_complete_attempt (options : SessionOptions) {σ : Type}
    (readers : List (Reader σ)) (start : σ) (world : E.World) (ops : List Operation) :
    let c := options.stopConditions
    let texts := options.stopStrings
    let s := (observed options world).after ops
    (c.tokens = none ∧
      ((∃ errors stop, FailsEach texts readers start errors stop ∧
          c.attempts readers start = (errors.map .error, c, stop) ∧
          ∀ token, c.isStopToken token = false) ∨
        ∃ failed read later errors between lists stop c', readers = failed ++ read :: later ∧
          FailsEach texts failed start errors between ∧ ReadsAll read texts between lists stop ∧
          c.attempts readers start =
            (errors.map .error ++ List.replicate (later.length + 1) (.ok ()), c', stop) ∧
          c' = { c with tokens := some lists.flatten } ∧
          ∀ token, c'.isStopToken token = true ↔ ∃ list ∈ lists, token ∈ list)) ∧
    (∀ l, s.phase = .loaded l → ∃ since, LiveSince s.calls since ∧
      StopReadings texts (since.filter isStopReading) l.stop.tokens) ∧
    ∀ op earlier drawn later,
      (s.perform op).2.calls = s.calls ++ (earlier ++ .sample drawn :: later) →
      ∃ (l : Loaded E.recorded) (since failed : List EngineCall)
        (read : List (String × List Token)), s.phase = .loaded l ∧ LiveSince s.calls since ∧
        since.filter isStopReading = failed ++ read.map reading ∧
        StopReadings texts failed none ∧ read.map Prod.fst = texts ∧
        ∀ token, l.stop.isStopToken token = true ↔
          ∃ tokens ∈ read.map Prod.snd, token ∈ tokens := by
  intro c texts s
  have hoptions : s.options = options := options_after _ ops
  have hknows : s.KnowsStops := (knowsStops_observed options world).after ops
  have hreadings : ∀ l, s.phase = .loaded l → ∃ since, LiveSince s.calls since ∧
      StopReadings texts (since.filter isStopReading) l.stop.tokens := by
    intro l hl
    obtain ⟨since, hlive, hknown⟩ := hknows l hl
    rw [hoptions] at hknown
    exact ⟨since, hlive, hknown.readings⟩
  refine ⟨⟨rfl, ?_⟩, hreadings, ?_⟩
  · rcases StopConditions.attempts_cases (c := c) rfl readers start with
      ⟨errors, stop, hfails, heq⟩ |
      ⟨failed, read, later, errors, between, lists, stop, hsplit, hfails, hreads, heq⟩
    · exact Or.inl ⟨errors, stop, hfails, heq, StopConditions.isStopToken_of_tokens_eq_none rfl⟩
    · exact Or.inr ⟨failed, read, later, errors, between, lists, stop, _, hsplit, hfails, hreads,
        heq, rfl, StopConditions.isStopToken_iff_of_tokens_eq rfl⟩
  · intro op earlier drawn later hdraw
    have haccounted : s.Accounted := (accounted_observed options world).after ops
    obtain ⟨l, tokens, hl, htokens⟩ := haccounted.exists_tokens_of_draw hdraw
    obtain ⟨since, hlive, hread⟩ := hreadings l hl
    rw [htokens] at hread
    obtain ⟨failed, read, hsplit, hfailed, htexts, rfl⟩ := hread.exists_of_some
    exact ⟨l, since, failed, read, hl, hlive, hsplit, hfailed, htexts,
      StopConditions.isStopToken_iff_of_tokens_eq htokens⟩

/-- The engine fails at the second text that it is asked to read, and at the sixth.  It takes four
turns on two contexts until a token is drawn, and then both stop tokens are known. -/
theorem stop_tokens_of_first_complete_attempt_of_two_contexts :
    let script : Script := { replies := [.ofByte 0x68], failTokenize := [2, 6] }
    let ops : List Operation := [.load "model", .prefill "a" false 8, .prefill "a" false 8,
      .reload none none, .prefill "a" false 8, .prefill "a" false 8]
    let s := (observed (E := script.engine) {} ({} : Script.World)).after ops
    (s.perform .step).2.calls =
        s.calls ++ [.sample ⟨0x68⟩, .decode [.ofToken ⟨0x68⟩ 2 true] true] ∧
      s.loaded?.bind (·.stop.tokens) = some [⟨258⟩, ⟨259⟩] ∧
      ∃ (l : Loaded script.engine.recorded) (read : List (String × List Token)),
        s.phase = .loaded l ∧ read.map Prod.fst = defaultStopStrings ∧
        ∀ token, l.stop.isStopToken token = true ↔
          ∃ tokens ∈ read.map Prod.snd, token ∈ tokens := by
  intro script ops s
  have hdraw : (s.perform .step).2.calls =
      s.calls ++ [.sample ⟨0x68⟩, .decode [.ofToken ⟨0x68⟩ 2 true] true] := by decide +kernel
  have htokens : s.loaded?.bind (·.stop.tokens) = some [⟨258⟩, ⟨259⟩] := by decide +kernel
  obtain ⟨-, -, hdraws⟩ := stop_tokens_of_first_complete_attempt (E := script.engine) {}
    ([] : List (Reader Unit)) () ({} : Script.World) ops
  obtain ⟨l, since, failed, read, hl, -, -, -, htexts, hstop⟩ := hdraws .step [] _ _ hdraw
  exact ⟨hdraw, htokens, l, read, hl, htexts, hstop⟩

end Session
end LlmSession
