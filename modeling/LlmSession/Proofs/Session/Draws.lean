import LlmSession.Proofs.Engine.Transcript
import LlmSession.Proofs.Session.Operations

/-!
# What a token is drawn from

An engine draws a token from the distribution that its last pass left.  If that pass failed, if it
did not ask for a distribution, or if the cache was emptied since, there is nothing to draw from,
and what comes is arbitrary.  A session never draws then, whatever its caller does and whichever
calls of the engine fail.

## The invariant

Whether the next step draws depends on the turn alone: it does if the turn is not over.  So the
invariant ties the turn to the transcript (`Loaded.Accounted`).  A turn that is not over stands for
two things that happened on the live context: a pass that left a distribution which nothing has
touched since, and the reading of all stop strings.  Every operation that touches the cache or
gives up the context ends the turn, and that is why the invariant is kept.

A draw itself touches nothing, but the token may lack bytes, or its pass may fail.  In both cases
the turn is lost.

## Main statements

* `Session.Accounted.performs`: one operation.
* `Session.Accounted.after`: a run.
* `Session.draws_from_fresh_distribution`: what is there when a token is drawn.
-/

namespace LlmSession

/-! ## What a transcript says of the live context -/

namespace EngineCall

/-- The calls `since` came after the last context was created. -/
def LiveSince (calls since : List EngineCall) : Prop :=
  ∃ before config, calls = before ++ .newContext config true :: since ∧
    ∀ call ∈ since, ¬ call.CreatesContext

/-- The last pass went well and left a distribution, and the cache was left alone since. -/
def LeaveDistribution (calls : List EngineCall) : Prop :=
  ∃ before slots slot after, calls = before ++ .decode slots true :: after ∧
    slots.getLast? = some slot ∧ slot.logits = true ∧ ∀ call ∈ after, ¬ call.TouchesCache

/-- All stop strings were read, in their order and with success, and these are their tokens. -/
def ReadStops (stopStrings : List String) (tokens : List Token) (calls : List EngineCall) : Prop :=
  ∃ read : List (String × List Token), read.map Prod.fst = stopStrings ∧
    tokens = (read.map Prod.snd).flatten ∧ read.map reading <:+: calls

variable {calls since new : List EngineCall}

theorem LiveSince.append (h : LiveSince calls since) (hnew : ∀ call ∈ new, ¬ call.CreatesContext) :
    LiveSince (calls ++ new) (since ++ new) := by
  obtain ⟨before, config, rfl, hsince⟩ := h
  refine ⟨before, config, by rw [List.append_assoc, List.cons_append], fun call hcall => ?_⟩
  exact (List.mem_append.1 hcall).elim (hsince call) (hnew call)

theorem ReadStops.append {stopStrings : List String} {tokens : List Token}
    (h : ReadStops stopStrings tokens since) (new : List EngineCall) :
    ReadStops stopStrings tokens (since ++ new) := by
  obtain ⟨read, htexts, htokens, hin⟩ := h
  exact ⟨read, htexts, htokens, hin.trans (List.prefix_append since new).isInfix⟩

theorem leaveDistribution_append_decode {slots : List BatchSlot} {slot : BatchSlot}
    (hlast : slots.getLast? = some slot) (hlogits : slot.logits = true) (calls : List EngineCall) :
    LeaveDistribution (calls ++ [.decode slots true]) :=
  ⟨calls, slots, slot, [], rfl, hlast, hlogits, nofun⟩

/-- Passes over parts leave a distribution, if the last slot of all asks for one. -/
theorem leaveDistribution_append_parts {parts : List (List BatchSlot)} {slot : BatchSlot}
    (hne : ∀ part ∈ parts, part ≠ []) (hlast : parts.flatten.getLast? = some slot)
    (hlogits : slot.logits = true) (calls : List EngineCall) :
    LeaveDistribution (calls ++ parts.map fun slots => .decode slots true) := by
  rcases List.eq_nil_or_concat parts with rfl | ⟨init, last, rfl⟩
  · exact nomatch hlast
  rw [List.concat_eq_append] at hne hlast ⊢
  have hlast_ne : last ≠ [] := hne last (List.mem_append_right _ (List.mem_singleton_self _))
  have hsome : last.getLast? = some (last.getLast hlast_ne) :=
    List.getLast?_eq_some_getLast hlast_ne
  rw [List.flatten_append, List.flatten_singleton, List.getLast?_append, hsome, Option.some_or,
    ← hsome] at hlast
  rw [List.map_append, ← List.append_assoc]
  exact leaveDistribution_append_decode hlast hlogits _

end EngineCall

open EngineCall

/-- Calls that neither create a context nor draw a token. -/
def EngineCall.IsQuiet (call : EngineCall) : Prop := ¬ call.CreatesContext ∧ ¬ call.IsDraw

theorem EngineCall.TouchesCache.isQuiet {call : EngineCall} (h : call.TouchesCache) :
    call.IsQuiet :=
  ⟨h.not_createsContext, h.not_isDraw⟩

theorem EngineCall.IsReading.isQuiet {call : EngineCall} (h : call.IsReading) : call.IsQuiet :=
  ⟨h.not_createsContext, h.not_isDraw⟩

theorem EngineCall.IsPass.isQuiet {call : EngineCall} (h : call.IsPass) : call.IsQuiet :=
  h.touchesCache.isQuiet

theorem Engine.onlyGot_isQuiet_of_tokenize {E : Engine} {context : E.recorded.Context}
    {text : String} {addSpecial parseControl : Bool} {w w' : E.recorded.World}
    {outcome : Except SessionError (List Token)}
    (h : E.recorded.tokenize context text addSpecial parseControl w = (outcome, w')) :
    Engine.OnlyGot EngineCall.IsQuiet w w' :=
  Engine.onlyGot_of_one (Engine.callsIn_of_tokenize h) (EngineCall.IsReading.isQuiet trivial)

/-! ## The invariant of a loaded session -/

namespace Loaded

variable {E : Engine}

/-- What the calls on the live context say of a loaded session. -/
structure Accounted (stopStrings : List String) (since : List EngineCall) (l : Loaded E) :
    Prop where
  stopStrings_eq : l.stop.stopStrings = stopStrings
  readStops : ∀ tokens, l.stop.tokens = some tokens → ReadStops stopStrings tokens since
  running : ∀ t, l.turn = some t → t.finished = none →
    (∃ tokens, l.stop.tokens = some tokens) ∧ LeaveDistribution since

variable {stopStrings : List String} {since new : List EngineCall}

/-- Without a turn that goes on, only the stop tokens have to be accounted for. -/
theorem Accounted.append_of_not_running {l l' : Loaded E} (h : l.Accounted stopStrings since)
    (hstop : l'.stop = l.stop) (hrun : ∀ t, l'.turn = some t → t.finished ≠ none)
    (new : List EngineCall) : l'.Accounted stopStrings (since ++ new) where
  stopStrings_eq := hstop ▸ h.stopStrings_eq
  readStops tokens htokens := (h.readStops tokens (hstop ▸ htokens)).append new
  running t ht hf := absurd hf (hrun t ht)

/-- The same without any turn. -/
theorem Accounted.append_of_not_turn {l l' : Loaded E} (h : l.Accounted stopStrings since)
    (hturn : l'.turn = none) (hstop : l'.stop = l.stop) (new : List EngineCall) :
    l'.Accounted stopStrings (since ++ new) := by
  refine h.append_of_not_running hstop (fun t ht => ?_) new
  rw [hturn] at ht
  exact nomatch ht

/-- The same when the turn was interrupted. -/
theorem Accounted.append_of_interrupt {l l' : Loaded E} (h : l.Accounted stopStrings since)
    (hturn : l'.turn = l.turn.map Turn.interrupt) (hstop : l'.stop = l.stop)
    (new : List EngineCall) : l'.Accounted stopStrings (since ++ new) := by
  refine h.append_of_not_running hstop (fun t ht => ?_) new
  rw [hturn] at ht
  obtain ⟨t₀, -, rfl⟩ := Option.map_eq_some_iff.1 ht
  unfold Turn.interrupt
  split
  · next hf => rw [hf]; exact nofun
  · exact nofun

/-- Whatever comes of the stop tokens, only stop strings are read for them. -/
theorem onlyGot_of_prepareStop {P : EngineCall → Prop}
    (hP : ∀ text answer, P (.tokenize text false true answer)) {l : Loaded E.recorded}
    {w w₁ : E.recorded.World} {answer : Except SessionError StopConditions}
    (h : l.prepareStop w = (answer, w₁)) : Engine.OnlyGot P w w₁ :=
  Engine.onlyGot_of_prepare hP h

/-- **The stop tokens are made**, or were there already. -/
theorem Accounted.prepareStop {l : Loaded E.recorded} {w w₁ : E.recorded.World}
    {answer : Except SessionError StopConditions} (h : l.Accounted stopStrings since)
    (hstop : l.prepareStop w = (answer, w₁)) :
    ∃ new, Engine.callsIn w₁ = Engine.callsIn w ++ new ∧ (∀ call ∈ new, call.IsQuiet) ∧
      ∀ stop, answer = .ok stop → stop.stopStrings = stopStrings ∧
        ∃ tokens, stop.tokens = some tokens ∧ ReadStops stopStrings tokens (since ++ new) := by
  have hprepares := l.stop.prepares (fun text => E.recorded.tokenize l.context text false true) w
  rw [show l.stop.prepare _ w = _ from hstop] at hprepares
  cases hprepares with
  | @there tokens htokens =>
    refine ⟨[], (List.append_nil _).symm, nofun, fun stop heq => ?_⟩
    cases heq
    exact ⟨h.stopStrings_eq, tokens, htokens, (h.readStops tokens htokens).append []⟩
  | made _ hreads =>
    obtain ⟨read, htexts, rfl, hcalls⟩ := Engine.exists_readings_of_readsAll hreads
    refine ⟨read.map reading, hcalls, fun call hcall => ?_, fun stop heq => ?_⟩
    · obtain ⟨p, -, rfl⟩ := List.mem_map.1 hcall
      exact IsReading.isQuiet trivial
    · cases heq
      refine ⟨h.stopStrings_eq, _, rfl, read, htexts.trans h.stopStrings_eq, rfl, ?_⟩
      exact (List.suffix_append since _).isInfix
  | failed _ hfails =>
    obtain ⟨new, hnew, hall⟩ :=
      Engine.onlyGot_of_prepare (P := IsReading) (fun _ _ => trivial) hstop
    exact ⟨new, hnew, fun call hcall => (hall call hcall).isQuiet, nofun⟩

/-- **The beginning of a turn** keeps the account, also where no turn comes of it. -/
theorem Accounted.prefills {l l' : Loaded E.recorded} {rejectLongPrompts : Bool} {id : Nat}
    {prompt : String} {parseControl : Bool} {maxNewTokens : Nat} {w w' : E.recorded.World}
    {answer : Except SessionError PrefillReport} (h : l.Accounted stopStrings since)
    (hp : l.Prefills rejectLongPrompts id prompt parseControl maxNewTokens w (answer, l', w')) :
    ∃ new, Engine.callsIn w' = Engine.callsIn w ++ new ∧ (∀ call ∈ new, call.IsQuiet) ∧
      l'.Accounted stopStrings (since ++ new) := by
  -- once the stop tokens are there, what is left is a number of quiet calls
  have hquiet : ∀ {stop : StopConditions} {w₁ w₂ : E.recorded.World} {l' : Loaded E.recorded},
      l.prepareStop w = (.ok stop, w₁) → Engine.OnlyGot IsQuiet w₁ w₂ → l'.stop = stop →
      l'.turn = none → ∃ new, Engine.callsIn w₂ = Engine.callsIn w ++ new ∧
        (∀ call ∈ new, call.IsQuiet) ∧ l'.Accounted stopStrings (since ++ new) := by
    rintro stop w₁ w₂ l' hstop ⟨more, hmore, hall⟩ rfl hturn
    obtain ⟨new, hnew, hquiet, hok⟩ := h.prepareStop hstop
    obtain ⟨hstrings, tokens, htokens, hread⟩ := hok _ rfl
    refine ⟨new ++ more, by rw [hmore, hnew, List.append_assoc],
      fun call hcall => (List.mem_append.1 hcall).elim (hquiet call) (hall call), hstrings,
      fun tokens' htokens' => ?_, fun t ht => ?_⟩
    · rw [htokens] at htokens'
      cases htokens'
      rw [← List.append_assoc]
      exact hread.append more
    · rw [hturn] at ht
      exact nomatch ht
  cases hp with
  | unprepared hstop =>
    obtain ⟨new, hnew, hquiet, -⟩ := h.prepareStop hstop
    refine ⟨new, hnew, hquiet, h.append_of_not_turn ?_ ?_ new⟩ <;> rfl
  | unread hstop htokens =>
    exact hquiet hstop (Engine.onlyGot_isQuiet_of_tokenize htokens) rfl rfl
  | empty hstop htokens =>
    exact hquiet hstop (Engine.onlyGot_isQuiet_of_tokenize htokens) rfl rfl
  | refused hstop htokens hne hreport hrefused =>
    exact hquiet hstop (Engine.onlyGot_isQuiet_of_tokenize htokens) rfl rfl
  | lost hstop htokens hne hreport htried hpasses =>
    have hgot := (Engine.onlyGot_isPass_of_submitAll hpasses).mono fun _ => IsPass.isQuiet
    exact hquiet hstop ((Engine.onlyGot_isQuiet_of_tokenize htokens).trans hgot) rfl rfl
  | @begun stop tokens report batch context w₁ w₂ _ hstop htokens hne hreport htried hpasses =>
    obtain ⟨new, hnew, hquiet, hok⟩ := h.prepareStop hstop
    obtain ⟨hstrings, stops, hstops, hread⟩ := hok _ rfl
    have hcalls := Engine.callsIn_of_submitAll_eq_ok hpasses
    rw [Engine.callsIn_of_tokenize htokens, hnew] at hcalls
    refine ⟨new ++ [.tokenize prompt true parseControl (some tokens)] ++
      (chunks l.batch.capacity (promptSlots tokens)).map fun slots => .decode slots true,
      by rw [hcalls]; simp only [List.append_assoc]; rfl, fun call hcall => ?_, hstrings,
      fun tokens' htokens' => ?_, fun t ht hf => ⟨⟨stops, hstops⟩, ?_⟩⟩
    · rcases List.mem_append.1 hcall with hcall | hcall
      · rcases List.mem_append.1 hcall with hcall | hcall
        · exact hquiet call hcall
        · rw [List.mem_singleton.1 hcall]
          exact IsReading.isQuiet trivial
      · obtain ⟨slots, -, rfl⟩ := List.mem_map.1 hcall
        exact IsPass.isQuiet trivial
    · have heq : stops = tokens' := Option.some.inj (hstops.symm.trans htokens')
      rw [List.append_assoc, ← List.append_assoc]
      exact heq ▸ hread.append _
    · obtain ⟨slot, hlast, hlogits⟩ := exists_getLast?_slotsFrom 0 hne
      rw [← List.append_assoc]
      refine leaveDistribution_append_parts (fun part => ne_nil_of_mem_chunks) ?_ hlogits _
      rw [flatten_chunks]
      exact hlast

/-- **A step** draws a token first of all, and keeps the account. -/
theorem Accounted.steps {l l' : Loaded E.recorded} {limit : LengthLimit} {t : Turn}
    {w w' : E.recorded.World} {outcome : Except SessionError Step}
    (h : l.Accounted stopStrings since) (ht : l.turn = some t) (hf : t.finished = none)
    (hs : l.Steps limit t w (outcome, l', w')) :
    ∃ more, Engine.callsIn w' = Engine.callsIn w ++ .sample (l.token w) :: more ∧
      (∀ call ∈ more, call.IsQuiet) ∧
      l'.Accounted stopStrings (since ++ .sample (l.token w) :: more) := by
  have hdraw : Engine.callsIn (l.drawnWorld w) = Engine.callsIn w ++ [.sample (l.token w)] :=
    Engine.callsIn_sample l.sampler l.context w
  cases hs with
  | verdict hv =>
    refine ⟨[], hdraw, nofun, h.append_of_not_running ?_ (fun t' ht' => ?_) _⟩
    · rfl
    cases ht'
    rw [Turn.finished_finish]
    exact nofun
  | noBytes hv hd =>
    refine ⟨[], hdraw, nofun, h.append_of_not_turn ?_ ?_ _⟩ <;> rfl
  | marker hv hd hm =>
    refine ⟨[], hdraw, nofun, h.append_of_not_running ?_ (fun t' ht' => ?_) _⟩
    · rfl
    cases ht'
    rw [Turn.finished_cutAt]
    exact nofun
  | @taken piece batch context _ hv hd hm hpass =>
    have hcalls := Engine.callsIn_of_submitSlots_eq_ok hpass
    rw [hdraw, List.append_assoc] at hcalls
    refine ⟨_, hcalls, fun call hcall => ?_, h.stopStrings_eq,
      fun tokens htokens => (h.readStops tokens htokens).append _,
      fun t' _ _ => ⟨(h.running t ht hf).1, ?_⟩⟩
    · rw [List.mem_singleton.1 hcall]
      exact IsPass.isQuiet trivial
    · have hpassed : LeaveDistribution (since ++ [.sample (l.token w)] ++
          [.decode [.ofToken (l.token w) t.cursor true] true]) :=
        leaveDistribution_append_decode rfl rfl _
      rwa [List.append_assoc] at hpassed
  | lost hv hd hm hpass =>
    obtain ⟨new, hnew, hall⟩ := Engine.onlyGot_isPass_of_submitSlots hpass
    rw [hdraw, List.append_assoc] at hnew
    refine ⟨new, hnew, fun call hcall => (hall call hcall).isQuiet,
      h.append_of_not_turn ?_ ?_ _⟩ <;> rfl

end Loaded

/-! ## A session under observation -/

namespace Session

variable {E : Engine}

/-- The calls that the engine got so far, oldest first. -/
def calls (s : Session E.recorded) : List EngineCall := Engine.callsIn s.world

/-- A session that has done nothing yet, with an engine under observation. -/
def observed (options : SessionOptions) (world : E.World) : Session E.recorded where
  options := options
  world := show E.World × Array EngineCall from (world, #[])

/-- The transcript accounts for what the session holds. -/
def Accounted (s : Session E.recorded) : Prop :=
  ∀ l, s.phase = .loaded l →
    ∃ since, LiveSince s.calls since ∧ l.Accounted s.options.stopStrings since

/-- Among these calls a token is drawn first or not at all, and only if the turn goes on. -/
def DrawsFirst (s : Session E.recorded) (new : List EngineCall) : Prop :=
  (∀ call ∈ new, ¬ call.IsDraw) ∨
    ∃ token more l t, new = .sample token :: more ∧ (∀ call ∈ more, ¬ call.IsDraw) ∧
      s.phase = .loaded l ∧ l.turn = some t ∧ t.finished = none

/-- What one operation does with the transcript. -/
def Continues (s s' : Session E.recorded) : Prop :=
  (∃ new, s'.calls = s.calls ++ new ∧ s.DrawsFirst new) ∧ s'.Accounted

theorem Accounted.continues_self {s : Session E.recorded} (h : s.Accounted) : s.Continues s :=
  ⟨⟨[], (List.append_nil _).symm, Or.inl nofun⟩, h⟩

/-- Without a loaded model nothing has to be accounted for. -/
theorem continues_of_not_loaded {s s' : Session E.recorded} {P : EngineCall → Prop}
    (hgot : Engine.OnlyGot P s.world s'.world) (hP : ∀ call, P call → ¬ call.IsDraw)
    (hloaded : ∀ l, s'.phase ≠ .loaded l) : s.Continues s' := by
  obtain ⟨new, hnew, hall⟩ := hgot
  exact ⟨⟨new, hnew, Or.inl fun call hcall => hP call (hall call hcall)⟩,
    fun l hl => absurd hl (hloaded l)⟩

/-- The context stays, and the calls on it are quiet. -/
theorem continues_of_quiet {s s' : Session E.recorded} {l : Loaded E.recorded}
    {since new : List EngineCall} (hlive : LiveSince s.calls since)
    (hnew : s'.calls = s.calls ++ new) (hquiet : ∀ call ∈ new, call.IsQuiet)
    (hl : s'.phase = .loaded l) (h : l.Accounted s'.options.stopStrings (since ++ new)) :
    s.Continues s' := by
  refine ⟨⟨new, hnew, Or.inl fun call hcall => (hquiet call hcall).2⟩, fun l' hl' => ?_⟩
  rw [hl] at hl'
  cases hl'
  exact ⟨since ++ new, hnew ▸ hlive.append fun call hcall => (hquiet call hcall).1, h⟩

/-- A context that was just created. -/
theorem continues_of_created {s s' : Session E.recorded} {l : Loaded E.recorded}
    {config : ContextConfig} {before after : List EngineCall}
    (hnew : s'.calls = s.calls ++ (before ++ .newContext config true :: after))
    (hbefore : ∀ call ∈ before, ¬ call.IsDraw) (hafter : ∀ call ∈ after, call.IsQuiet)
    (hl : s'.phase = .loaded l) (hstop : l.stop = s'.options.stopConditions)
    (hturn : l.turn = none) : s.Continues s' := by
  refine ⟨⟨_, hnew, Or.inl fun call hcall => ?_⟩, fun l' hl' => ?_⟩
  · rcases List.mem_append.1 hcall with hcall | hcall
    · exact hbefore call hcall
    · rcases List.mem_cons.1 hcall with rfl | hcall
      · exact id
      · exact (hafter call hcall).2
  · rw [hl] at hl'
    cases hl'
    refine ⟨after, ⟨s.calls ++ before, config, by rw [hnew, List.append_assoc],
      fun call hcall => (hafter call hcall).1⟩, ?_, fun tokens htokens => ?_, fun t ht => ?_⟩
    · rw [hstop]
      rfl
    · rw [hstop] at htokens
      exact nomatch htokens
    · rw [hturn] at ht
      exact nomatch ht

theorem onlyGot_of_allocates_error {options : SessionOptions} {path : String}
    {w w' : E.recorded.World} {e : SessionError}
    (h : Allocates options path w (.error e, w')) :
    Engine.OnlyGot (fun call => ¬ call.IsDraw) w w' := by
  cases h with
  | noModel hm => exact Engine.onlyGot_of_one (Engine.callsIn_of_loadModel hm) id
  | noContext hm hc =>
    exact (Engine.onlyGot_of_one (Engine.callsIn_of_loadModel hm) id).trans
      (Engine.onlyGot_of_one (Engine.callsIn_of_newContext hc) id)
  | noBatch hm hc hb =>
    exact (Engine.onlyGot_of_one (Engine.callsIn_of_loadModel hm) id).trans
      (Engine.onlyGot_of_one (Engine.callsIn_of_newContext hc) id)

theorem callsIn_of_allocates_ok {options : SessionOptions} {path : String}
    {w w' : E.recorded.World} {l : Loaded E.recorded}
    (h : Allocates options path w (.ok l, w')) :
    Engine.callsIn w' = Engine.callsIn w ++ ([.loadModel path options.gpuLayers true] ++
      .newContext options.context true :: [.newSampler options.sampler]) ∧
      l.stop = options.stopConditions ∧ l.turn = none := by
  cases h with
  | had hm hc hb =>
    refine ⟨?_, rfl, rfl⟩
    rw [Engine.callsIn_newSampler, Engine.callsIn_of_newContext hc,
      Engine.callsIn_of_loadModel hm, List.append_assoc, List.append_assoc]
    rfl

/-- **An operation** draws only from a turn that goes on, and keeps the account. -/
theorem Accounted.performs {s : Session E.recorded} {op : Operation}
    {result : Except SessionError Answer × Session E.recorded} (h : s.Accounted)
    (hp : s.Performs op result) : s.Continues result.2 := by
  induction hp with
  | notIdle _ => exact h.continues_self
  | notLoaded _ _ => exact h.continues_self
  | noTurn _ _ => exact h.continues_self
  | replaced _ _ => exact h.continues_self
  | finished _ _ _ => exact h.continues_self
  | stepFor _ _ ih => exact ih
  | loadFailed hidle ha =>
    exact continues_of_not_loaded (onlyGot_of_allocates_error ha) (fun _ => id)
      (by simp [hidle])
  | loaded hidle ha =>
    obtain ⟨hcalls, hstop, hturn⟩ := callsIn_of_allocates_ok ha
    refine continues_of_created hcalls ?_ ?_ rfl hstop hturn
    · intro call hcall
      rw [List.mem_singleton.1 hcall]
      exact id
    · intro call hcall
      rw [List.mem_singleton.1 hcall]
      exact ⟨id, id⟩
  | faulted hl hc =>
    exact continues_of_not_loaded (P := fun call => ¬ call.IsDraw)
      (Engine.onlyGot_of_one (Engine.callsIn_of_newContext hc) id) (fun _ => id) nofun
  | reloaded hl hc =>
    have hcalls := Engine.callsIn_of_newContext hc
    rw [← List.nil_append [_]] at hcalls
    exact continues_of_created hcalls nofun nofun rfl rfl rfl
  | notBegun hl hp =>
    obtain ⟨since, hlive, hl⟩ := h _ hl
    obtain ⟨new, hnew, hquiet, hl'⟩ := hl.prefills hp
    exact continues_of_quiet hlive hnew hquiet rfl hl'
  | begun hl hp =>
    obtain ⟨since, hlive, hl⟩ := h _ hl
    obtain ⟨new, hnew, hquiet, hl'⟩ := hl.prefills hp
    exact continues_of_quiet hlive hnew hquiet rfl hl'
  | stepped hl ht hf hstep =>
    obtain ⟨since, hlive, hacc⟩ := h _ hl
    obtain ⟨more, hmore, hquiet, hl'⟩ := hacc.steps ht hf hstep
    refine ⟨⟨_, hmore, Or.inr ⟨_, more, _, _, rfl, fun call hcall => (hquiet call hcall).2,
      hl, ht, hf⟩⟩, fun l' heq => ?_⟩
    cases heq
    refine ⟨_, ?_, hl'⟩
    rw [calls, hmore]
    refine hlive.append fun call hcall => ?_
    rcases List.mem_cons.1 hcall with rfl | hcall
    · exact id
    · exact (hquiet call hcall).1
  | cleared hl hc =>
    obtain ⟨since, hlive, hacc⟩ := h _ hl
    refine continues_of_quiet hlive (Engine.callsIn_of_clearMemory hc) (fun call hcall => ?_) rfl
      (hacc.append_of_interrupt ?_ ?_ _)
    · rw [List.mem_singleton.1 hcall]
      exact TouchesCache.isQuiet trivial
    · rfl
    · rfl
  | measured hl hb =>
    obtain ⟨since, hlive, hacc⟩ := h _ hl
    obtain ⟨new, hnew, hall⟩ := Engine.onlyGot_of_benchmark hb
    refine continues_of_quiet hlive hnew (fun call hcall => (hall call hcall).isQuiet) rfl
      (hacc.append_of_interrupt ?_ ?_ _) <;> rfl
  | unloaded => exact continues_of_not_loaded (.refl IsPass _) (fun _ h => h.isQuiet.2) nofun

/-- **A run** keeps the account. -/
theorem Accounted.after {s : Session E.recorded} (h : s.Accounted) (ops : List Operation) :
    (s.after ops).Accounted := by
  induction ops generalizing s with
  | nil => exact h
  | cons op ops ih => exact ih (h.performs (s.performs op)).2

theorem accounted_observed (options : SessionOptions) (world : E.World) :
    (observed options world).Accounted := nofun

theorem options_after (s : Session E) (ops : List Operation) :
    (s.after ops).options = s.options := by
  induction ops generalizing s with
  | nil => rfl
  | cons op ops ih =>
    rw [after, ih]
    have hp := s.performs op
    generalize s.perform op = result at hp
    induction hp with
    | stepFor _ _ ih => exact ih
    | _ => rfl

/-- **A token is drawn from a fresh distribution only.**  Whatever was done with a session and
whichever calls failed, an operation that draws a token draws it before all else.  At that moment
the last pass on the live context has gone well and asked for a distribution at its last slot, the
cache was not emptied since, and the tokens of all stop strings were read on this very context. -/
theorem draws_from_fresh_distribution (options : SessionOptions) (world : E.World)
    (ops : List Operation) (op : Operation) :
    let s := (observed options world).after ops
    ∀ earlier token later,
      (s.perform op).2.calls = s.calls ++ (earlier ++ .sample token :: later) →
      earlier = [] ∧ ∃ l since tokens, s.phase = .loaded l ∧ LiveSince s.calls since ∧
        LeaveDistribution since ∧ l.stop.tokens = some tokens ∧
        ReadStops options.stopStrings tokens since := by
  intro s earlier token later h
  have hacc : s.Accounted := (accounted_observed options world).after ops
  have hoptions : s.options = options := options_after _ ops
  obtain ⟨new, hnew, hdraws⟩ := (hacc.performs (s.performs op)).1
  rw [hnew, List.append_right_inj] at h
  rcases hdraws with hnone | ⟨token', more, l, t, hfirst, hmore, hl, ht, hf⟩
  · -- an operation that draws nothing has no such call
    refine absurd trivial (hnone (.sample token) ?_)
    rw [h]
    exact List.mem_append_right _ List.mem_cons_self
  rw [hfirst] at h
  cases earlier with
  | nil =>
    obtain ⟨since, hlive, hloaded⟩ := hacc l hl
    obtain ⟨⟨tokens, htokens⟩, hleave⟩ := hloaded.running t ht hf
    refine ⟨rfl, l, since, tokens, hl, hlive, hleave, htokens, ?_⟩
    rw [← hoptions]
    exact hloaded.readStops tokens htokens
  | cons call earlier =>
    -- the draw is the first call of the operation, so there is none after another call
    rw [List.cons_append, List.cons.injEq] at h
    refine absurd trivial (hmore (.sample token) ?_)
    rw [h.2]
    exact List.mem_append_right _ List.mem_cons_self

/-- The stop strings cannot be read at first, and then the pass of the first token fails; the turn
after that draws. -/
theorem draws_from_fresh_distribution_of_third_turn :
    let script : Script :=
      { replies := [.ofByte 0x68, .ofByte 0x69], failTokenize := [1], failDecode := [2] }
    let ops : List Operation := [.load "model", .prefill "a" false 8, .prefill "a" false 8,
      .step, .step, .prefill "b" false 8]
    let s := (observed (E := script.engine) {} ({} : Script.World)).after ops
    (s.perform .step).2.calls =
        s.calls ++ [.sample ⟨0x69⟩, .decode [.ofToken ⟨0x69⟩ 2 true] true] ∧
      ∃ l since tokens, s.phase = .loaded l ∧ LiveSince s.calls since ∧ LeaveDistribution since ∧
        l.stop.tokens = some tokens ∧ ReadStops defaultStopStrings tokens since := by
  intro script ops s
  have hdraw : (s.perform .step).2.calls =
      s.calls ++ [.sample ⟨0x69⟩, .decode [.ofToken ⟨0x69⟩ 2 true] true] := by decide +kernel
  have hfresh := draws_from_fresh_distribution (E := script.engine) {} ({} : Script.World) ops .step
    [] ⟨0x69⟩ [.decode [.ofToken ⟨0x69⟩ 2 true] true] hdraw
  exact ⟨hdraw, hfresh.2⟩

end Session
end LlmSession
