import LlmSession.Proofs.Engine.Room
import LlmSession.Proofs.Session.Cache
import LlmSession.Proofs.Session.Finality

/-!
# The course of a turn that nothing disturbs

How long a turn may become is settled when it begins.  The caller sets a length, which counts the
prompt or does not, and the cache has so many places.  If no token and no marker ends the turn
earlier, and the engine does what it is asked for, then these numbers say everything: how many
tokens go into the cache, at which places, and which of the two reasons the turn ends for.

## One token more than there is room for

A step asks for room after it has drawn its token, and it looks at the cursor as it was before.  So
the token that there is no room for is drawn as well, and dropped.  If the length and the cache run
out at the same token, the length is the reason.  And if the prompt alone is longer than the turn
should be, which can happen when the length counts the prompt, then the very first token is dropped;
for the prompt is never cut.

## Main definitions

* `Bounds`: the numbers, and what follows from them.
* `Loaded.DrawsOn`, `Loaded.Undisturbed`, `Session.Meets`: what a step meets with.
* `Session.Goes`, `Session.Runs`: what one step can then do, and the turn whose steps are such.

## Main statements

* `Loaded.DrawsOn.verdict_eq`: when a turn is over that nothing ends earlier.
* `Session.goes_of_undisturbed`: one step.
* `Session.Runs.ends`, `Session.Runs.passes`, `Session.Runs.onlyGot_staysBelow`: all of them.
* `Session.exact_length`: the length of a turn.
-/

namespace LlmSession

/-! ## The numbers -/

/-- What the length of a turn depends on. -/
structure Bounds where
  limit : LengthLimit
  promptTokens : Nat
  maxNewTokens : Nat
  /-- The places of the cache. -/
  places : Nat

namespace Bounds

/-- The cursor at which the turn has its full length. -/
def length (b : Bounds) : Nat :=
  if b.limit = .generated then b.promptTokens + b.maxNewTokens else b.maxNewTokens

/-- How many tokens the turn can put behind its prompt. -/
def room (b : Bounds) : Nat := min b.length b.places - b.promptTokens

/-- Why the turn is over, if nothing ends it earlier. -/
def reason (b : Bounds) : StopReason :=
  if b.length ≤ b.places then .maxLength else .contextFull

/-- A turn with these bounds after `k` steps. -/
inductive Reached (b : Bounds) (k : Nat) (t : Turn) : Prop where
  | running (hf : t.finished = none) (hprompt : t.promptTokens = b.promptTokens)
    (hmax : t.maxNewTokens = b.maxNewTokens) (hcursor : t.cursor = b.promptTokens + k)
    (hk : k ≤ b.room)
  | stopped (hf : t.finished = some b.reason) (hk : b.room < k)

theorem reached_start (b : Bounds) (id : Nat) :
    b.Reached 0 (.start id b.promptTokens b.maxNewTokens) :=
  .running rfl rfl rfl rfl (Nat.zero_le b.room)

/-- The pass for the token that was drawn after `k` others. -/
def pass (b : Bounds) (k : Nat) (token : Token) : EngineCall :=
  .decode [.ofToken token (b.promptTokens + k) true] true

/-- What the step after `k` others asks the engine for, if it draws this. -/
def asked (b : Bounds) (k : Nat) : Option Token → List EngineCall
  | none => []
  | some token => .sample token :: if k < b.room then [b.pass k token] else []

end Bounds

/-! ## What a step may meet with -/

/-- Whether an answer is a success with some property, and whether it is one without others, is
decided by looking at it. -/
instance decidableExistsOk {ε α : Type} (x : Except ε α) (P : α → Prop) [DecidablePred P] :
    Decidable (∃ a, x = .ok a ∧ P a) :=
  match x with
  | .error _ => isFalse fun ⟨_, h, _⟩ => nomatch h
  | .ok a => decidable_of_iff (P a)
    ⟨fun h => ⟨a, rfl, h⟩, fun ⟨_, ha, h⟩ => Except.ok.inj ha ▸ h⟩

instance decidableForallOk {ε α : Type} (x : Except ε α) (P : α → Prop) [DecidablePred P] :
    Decidable (∀ a, x = .ok a → P a) :=
  match x with
  | .error _ => isTrue fun _ h => nomatch h
  | .ok a => decidable_of_iff (P a) ⟨fun h _ ha => Except.ok.inj ha ▸ h, fun h => h a rfl⟩

namespace Loaded

variable {E : Engine}

/-- The token that is drawn next does not end the turn by itself, and if there is room for it, then
it has bytes, and no marker is among them. -/
structure DrawsOn (l : Loaded E) (limit : LengthLimit) (t : Turn) (w : E.World) : Prop where
  not_ending : E.isEndOfGeneration l.context (l.token w) = false
  not_stopToken : l.stop.isStopToken (l.token w) = false
  bytes : l.verdict limit t (l.token w) = none →
    ∃ piece, E.detokenize l.context (l.token w) = .ok piece ∧ ¬ l.stop.Contains (t.text ++ piece)

/-- And the cache has so many places, and the engine makes the pass for the token. -/
structure Undisturbed (places : Nat) (l : Loaded E) (limit : LengthLimit) (t : Turn) (w : E.World) :
    Prop extends DrawsOn l limit t w where
  places_eq : (E.contextSize l.context).toNat = places
  decode_eq_ok : l.verdict limit t (l.token w) = none →
    ∀ batch, l.batch.fill [.ofToken (l.token w) t.cursor true] = .ok batch →
      (E.decode batch l.context (l.drawnWorld w)).1 = .ok ()

variable {l l' : Loaded E} {limit : LengthLimit} {places : Nat} {t : Turn} {w w' : E.World}

instance : Decidable (l.DrawsOn limit t w) :=
  decidable_of_iff (_ ∧ _ ∧ _)
    ⟨fun ⟨hending, hstop, hbytes⟩ => ⟨hending, hstop, hbytes⟩,
      fun h => ⟨h.not_ending, h.not_stopToken, h.bytes⟩⟩

instance : Decidable (l.Undisturbed places limit t w) :=
  decidable_of_iff (_ ∧ _ ∧ _)
    ⟨fun ⟨hdraws, hplaces, hdecode⟩ => ⟨hdraws, hplaces, hdecode⟩,
      fun h => ⟨h.toDrawsOn, h.places_eq, h.decode_eq_ok⟩⟩

/-- **A turn that nothing ends earlier** is over when there is no room left. -/
theorem DrawsOn.verdict_eq (h : l.DrawsOn limit t w) {b : Bounds} {k : Nat}
    (hlimit : limit = b.limit) (hplaces : (E.contextSize l.context).toNat = b.places)
    (hprompt : t.promptTokens = b.promptTokens) (hmax : t.maxNewTokens = b.maxNewTokens)
    (hcursor : t.cursor = b.promptTokens + k) (hk : k ≤ b.room)
    (hfits : b.promptTokens ≤ b.places) :
    l.verdict limit t (l.token w) = if k < b.room then none else some b.reason := by
  have hreached : b.limit.reached (b.promptTokens + k) b.promptTokens b.maxNewTokens = true ↔
      b.length ≤ b.promptTokens + k := by
    rw [LengthLimit.reached_iff (Nat.le_add_right _ _), LengthLimit.ceiling_eq, Bounds.length]
  have hverdict : l.verdict limit t (l.token w) =
      if b.length ≤ b.promptTokens + k then some .maxLength
      else if b.places ≤ b.promptTokens + k then some .contextFull else none := by
    rw [verdict, h.not_ending, h.not_stopToken, hlimit, hprompt, hmax, hplaces, hcursor]
    simp only [hreached, Bool.false_eq_true, if_false]
  rw [hverdict]
  unfold Bounds.room at hk ⊢
  by_cases hroom : k < min b.length b.places - b.promptTokens
  · rw [if_pos hroom, if_neg (by omega), if_neg (by omega)]
  · rw [if_neg hroom, Bounds.reason]
    -- the cursor stands at the nearer bound, or at the end of a prompt that is past the length
    by_cases hlength : b.length ≤ b.places
    · rw [if_pos hlength, if_pos (by omega)]
    · rw [if_neg hlength, if_neg (by omega), if_pos (by omega)]

theorem Undisturbed.pass_eq_ok (h : l.Undisturbed places limit t w)
    (hv : l.verdict limit t (l.token w) = none) : (l.pass t w).1 = .ok () := by
  obtain ⟨batch, -, -, -, hfill, hslots⟩ := Engine.exists_submitSlots_eq
    (l.batch.hasRoom_ofToken (l.token w) t.cursor true) l.context (l.drawnWorld w)
  have hdecode := h.decode_eq_ok hv batch hfill
  rw [pass, hslots]
  rcases hsubmit : E.submit batch l.context (l.drawnWorld w) with ⟨outcome, context, w'⟩
  rcases Engine.submit_cases hsubmit with ⟨hok, -⟩ | ⟨e, -, herror⟩
  · exact hok
  · rw [herror] at hdecode
    exact nomatch hdecode

end Loaded

namespace Session

variable {E : Engine} {s : Session E} {b : Bounds} {k : Nat} {t : Turn}
  {result : Except SessionError Answer × Session E}

/-- What the next step of the session meets with, unless the turn is over. -/
def Meets (s : Session E) (P : Loaded E → LengthLimit → Turn → E.World → Prop) : Prop :=
  ∀ l ∈ s.loaded?, ∀ t ∈ l.turn, t.finished = none → P l s.options.lengthLimit t s.world

instance (P : Loaded E → LengthLimit → Turn → E.World → Prop)
    [∀ l limit t w, Decidable (P l limit t w)] : Decidable (s.Meets P) :=
  inferInstanceAs (Decidable (∀ l ∈ s.loaded?, ∀ t ∈ l.turn, t.finished = none →
    P l s.options.lengthLimit t s.world))

theorem meets_of_finished {P : Loaded E → LengthLimit → Turn → E.World → Prop}
    {reason : StopReason} (ht : s.turn? = some t) (hf : t.finished = some reason) : s.Meets P := by
  intro l hl t' ht' hf'
  rw [turn?_of_loaded (phase_eq_of_loaded? hl)] at ht
  cases ht.symm.trans ht'
  rw [hf] at hf'
  exact nomatch hf'

/-! ## One step -/

/-- What the step after `k` others does, if none of them is disturbed. -/
inductive Goes (b : Bounds) (k : Nat) (s : Session E)
    (result : Except SessionError Answer × Session E) : Prop where
  /-- There is room for the token. -/
  | taken {l : Loaded E} {batch : TokenBatch} {context : E.Context} {text : String}
    (hk : k < b.room) (hdraw : s.nextDraw? = some (l.token s.world))
    (hpass : E.submitSlots [.ofToken (l.token s.world) (b.promptTokens + k) true] l.batch l.context
      (l.drawnWorld s.world) = (.ok (), batch, context, result.2.world))
    (hanswer : result.1 = .ok (.stepped (.fragment text)))
  /-- There is none, and the turn is over. -/
  | ended {l : Loaded E} {held : String}
    (hk : k = b.room) (hdraw : s.nextDraw? = some (l.token s.world))
    (hworld : result.2.world = l.drawnWorld s.world)
    (hanswer : result.1 = .ok (.stepped (.closing held b.reason)))
  /-- The turn was over before. -/
  | stopped (hk : b.room < k) (hdraw : s.nextDraw? = none) (hsame : result.2 = s)
    (hanswer : result.1 = .ok (.stepped (.endOfStream b.reason)))

/-- **A step that is not disturbed**, and the turn after it. -/
theorem goes_of_undisturbed (hquiet : s.Meets (Loaded.Undisturbed b.places))
    (hlimit : s.options.lengthLimit = b.limit) (hfits : b.promptTokens ≤ b.places)
    (ht : s.turn? = some t) (h : b.Reached k t) :
    s.Goes b k (s.perform .step) ∧
      ∃ t', (s.perform .step).2.turn? = some t' ∧ b.Reached (k + 1) t' := by
  obtain ⟨l, hloaded, hl, hturn⟩ := exists_loaded_of_turn? ht
  cases h with
  | stopped hf hk =>
    have hsame : s.perform .step = (.ok (.stepped (.endOfStream b.reason)), s) := by
      rw [perform, decodeStep_of_finished ht hf]
      rfl
    rw [hsame]
    exact ⟨.stopped hk (nextDraw?_of_finished hl hturn hf) rfl rfl, t, ht,
      .stopped hf (Nat.lt_succ_of_lt hk)⟩
  | running hf hprompt hmax hcursor hk =>
    have hquiet := hquiet l hloaded t hturn hf
    have hdraw := nextDraw?_of_running hl hturn hf
    have hverdict := hquiet.verdict_eq hlimit hquiet.places_eq hprompt hmax hcursor hk hfits
    obtain ⟨outcome, l', w', hstep, hdecode⟩ := decodeStep_of_running hl hturn hf
    rw [perform, hdecode]
    cases hstep with
    | verdict hv =>
      have hroom : ¬ k < b.room := by
        intro hlt
        rw [hverdict, if_pos hlt] at hv
        cases hv
      rw [hverdict, if_neg hroom] at hv
      cases hv
      exact ⟨.ended (Nat.le_antisymm hk (Nat.le_of_not_lt hroom)) hdraw rfl rfl, _, rfl,
        .stopped (Turn.finished_finish t _) (Nat.lt_succ_of_le (Nat.le_of_not_lt hroom))⟩
    | noBytes hv hd =>
      obtain ⟨piece, hpiece, -⟩ := hquiet.bytes hv
      rw [hd] at hpiece
      cases hpiece
    | marker hv hd hm =>
      obtain ⟨piece, hpiece, hmarker⟩ := hquiet.bytes hv
      rw [hd] at hpiece
      cases hpiece
      exact absurd ⟨_, StopConditions.infix_of_findMarker?_eq_some hm⟩ hmarker
    | lost hv hd hm hp =>
      have hok := hquiet.pass_eq_ok hv
      rw [hp] at hok
      cases hok
    | @taken piece batch context w' hv hd hm hp =>
      have hroom : k < b.room := by
        by_contra hnot
        rw [hverdict, if_neg hnot] at hv
        cases hv
      rw [Loaded.pass, hcursor] at hp
      refine ⟨.taken hroom hdraw hp rfl, _, rfl, .running ?_ ?_ ?_ ?_ hroom⟩
      · exact (l.finished_release t piece).trans hf
      · exact (l.promptTokens_release t piece).trans hprompt
      · exact (l.maxNewTokens_release t piece).trans hmax
      · exact congrArg (· + 1) hcursor

/-- What is asked for in such a step. -/
theorem Goes.calls_eq {s : Session E.recorded}
    {result : Except SessionError Answer × Session E.recorded} (h : s.Goes b k result) :
    result.2.calls = s.calls ++ b.asked k s.nextDraw? := by
  cases h with
  | @taken l batch context text hk hdraw hpass hanswer =>
    have hcalls := Engine.callsIn_of_submitSlots_eq_ok hpass
    rw [Loaded.drawnWorld, Engine.callsIn_sample, List.append_assoc] at hcalls
    rw [hdraw, Bounds.asked, if_pos hk]
    exact hcalls
  | @ended l held hk hdraw hworld hanswer =>
    have hcalls := Engine.callsIn_sample l.sampler l.context s.world
    rw [hdraw, Bounds.asked, if_neg (Nat.not_lt.2 (Nat.le_of_eq hk.symm)), calls, hworld]
    exact hcalls
  | stopped hk hdraw hsame hanswer =>
    rw [hsame, hdraw]
    exact (List.append_nil _).symm

/-- Such a step gives no reason while there is room, and the step after the one that finds no room
gives it for certain. -/
theorem Goes.reason?_eq (h : s.Goes b k result) :
    (∀ reason, reason? result.1 = some reason → reason = b.reason ∧ b.room ≤ k) ∧
      (b.room < k → reason? result.1 = some b.reason) := by
  cases h with
  | taken hk hdraw hpass hanswer =>
    rw [hanswer]
    exact ⟨nofun, fun hlt => absurd hlt (Nat.lt_asymm hk)⟩
  | ended hk hdraw hworld hanswer =>
    rw [hanswer]
    refine ⟨fun reason hreason => ⟨(eq_of_reason?_closing hreason).symm, Nat.le_of_eq hk.symm⟩, ?_⟩
    intro hlt
    exact absurd hk (Nat.ne_of_gt hlt)
  | stopped hk hdraw hsame hanswer =>
    rw [hanswer]
    exact ⟨fun reason hreason => ⟨(Option.some.inj hreason).symm, Nat.le_of_lt hk⟩, fun _ => rfl⟩

/-! ## All steps -/

/-- The session after `k` steps more. -/
def stepped (s : Session E) (k : Nat) : Session E := s.after (List.replicate k .step)

theorem stepped_succ (s : Session E) (k : Nat) :
    s.stepped (k + 1) = ((s.stepped k).perform .step).2 := by
  rw [stepped, List.replicate_succ', after_append]
  rfl

theorem draws_replicate_succ (s : Session E) (k : Nat) :
    s.draws (List.replicate (k + 1) .step) =
      s.draws (List.replicate k .step) ++ (s.stepped k).nextDraw?.toList := by
  rw [List.replicate_succ', draws_append]
  exact congrArg (s.draws _ ++ ·) (List.append_nil _)

theorem endsWith_replicate_succ (s : Session E) (k : Nat) (reason : StopReason) :
    s.EndsWith (List.replicate (k + 1) .step) reason ↔
      reason? ((s.stepped k).perform .step).1 = some reason := by
  rw [EndsWith, List.replicate_succ', answers_append, List.getLast?_append]
  rfl

/-- What each step meets with: only those up to the end of the turn have to be looked at. -/
theorem meets_stepped {P : Loaded E → LengthLimit → Turn → E.World → Prop} {m : Nat}
    {reason : StopReason} (hbefore : ∀ k < m, (s.stepped k).Meets P)
    (ht : (s.stepped m).turn? = some t) (hf : t.finished = some reason) (k : Nat) :
    (s.stepped k).Meets P := by
  by_cases hk : k < m
  · exact hbefore k hk
  · obtain ⟨j, rfl⟩ := Nat.exists_eq_add_of_le (Nat.le_of_not_lt hk)
    have hkept : ∀ op ∈ List.replicate j Operation.step, ¬ op.GivesUpTurn := by
      intro op hop
      rw [List.eq_of_mem_replicate hop]
      exact id
    rw [stepped, ← List.replicate_append_replicate, after_append]
    exact meets_of_finished (turn?_after_of_finished ht hf hkept).1 hf

/-- A turn that begins with these bounds, and whose steps are not disturbed. -/
structure Runs (b : Bounds) (s : Session E) : Prop where
  undisturbed : ∀ k, (s.stepped k).Meets (Loaded.Undisturbed b.places)
  limit_eq : s.options.lengthLimit = b.limit
  fits : b.promptTokens ≤ b.places
  begun : ∃ t, s.turn? = some t ∧ b.Reached 0 t

/-- Where the steps lead. -/
theorem Runs.goes (h : s.Runs b) (k : Nat) :
    (s.stepped k).Goes b k ((s.stepped k).perform .step) := by
  have hreached : ∃ t, (s.stepped k).turn? = some t ∧ b.Reached k t := by
    induction k with
    | zero => exact h.begun
    | succ k ih =>
      obtain ⟨t, ht, hk⟩ := ih
      rw [stepped_succ]
      refine (goes_of_undisturbed (h.undisturbed k) ?_ h.fits ht hk).2
      rw [stepped, options_after, h.limit_eq]
  obtain ⟨t, ht, hk⟩ := hreached
  refine (goes_of_undisturbed (h.undisturbed k) ?_ h.fits ht hk).1
  rw [stepped, options_after, h.limit_eq]

/-- **When the turn is over.** -/
theorem Runs.ends (h : s.Runs b) :
    (∀ k reason, s.EndsWith (List.replicate k .step) reason → reason = b.reason ∧ b.room < k) ∧
      ∀ k, b.room + 1 < k → s.EndsWith (List.replicate k .step) b.reason := by
  constructor
  · intro k reason hends
    cases k with
    | zero => exact nomatch hends
    | succ k =>
      obtain ⟨hreason, hk⟩ :=
        (h.goes k).reason?_eq.1 reason ((endsWith_replicate_succ s k reason).1 hends)
      exact ⟨hreason, Nat.lt_succ_of_le hk⟩
  · intro k hk
    cases k with
    | zero => exact absurd hk (Nat.not_lt_zero _)
    | succ k =>
      exact (endsWith_replicate_succ s k _).2 ((h.goes k).reason?_eq.2 (Nat.lt_of_succ_lt_succ hk))

/-- **What is drawn.**  One token for each place that there is room for, and one more. -/
theorem Runs.length_draws (h : s.Runs b) (k : Nat) :
    (s.draws (List.replicate k .step)).length = min k (b.room + 1) := by
  induction k with
  | zero => exact (Nat.zero_min _).symm
  | succ k ih =>
    rw [draws_replicate_succ, List.length_append, ih]
    cases h.goes k with
    | taken hk hdraw hpass hanswer =>
      rw [hdraw, Option.toList_some, List.length_singleton]
      omega
    | ended hk hdraw hworld hanswer =>
      rw [hdraw, Option.toList_some, List.length_singleton]
      omega
    | stopped hk hdraw hsame hanswer =>
      rw [hdraw, Option.toList_none, List.length_nil]
      omega

/-- **What is passed on.**  Each token that there is room for, at the place behind the others. -/
theorem Runs.passes {s : Session E.recorded} (h : s.Runs b) (k : Nat) :
    ∃ asked, (s.stepped k).calls = s.calls ++ asked ∧
      asked.filter (fun call => decide call.IsPass) =
        ((s.draws (List.replicate k .step)).take b.room).mapIdx b.pass := by
  induction k with
  | zero =>
    refine ⟨[], (List.append_nil _).symm, ?_⟩
    rw [List.replicate_zero, draws, List.take_nil]
    rfl
  | succ k ih =>
    obtain ⟨asked, hcalls, hpasses⟩ := ih
    have hlength := h.length_draws k
    have hgoes := h.goes k
    refine ⟨asked ++ b.asked k (s.stepped k).nextDraw?, ?_, ?_⟩
    · rw [stepped_succ, hgoes.calls_eq, hcalls, List.append_assoc]
    rw [draws_replicate_succ, List.filter_append, hpasses]
    cases hgoes with
    | taken hk hdraw hpass hanswer =>
      rw [hdraw, Bounds.asked, if_pos hk, Option.toList_some, List.take_of_length_le (by omega),
        List.take_of_length_le (by rw [List.length_append, List.length_singleton]; omega),
        List.mapIdx_concat, hlength, Nat.min_eq_left (by omega)]
      rfl
    | ended hk hdraw hworld hanswer =>
      rw [hdraw, Bounds.asked, if_neg (by omega), Option.toList_some,
        List.take_append_of_le_length (by omega)]
      exact List.append_nil _
    | stopped hk hdraw hsame hanswer =>
      rw [hdraw, Option.toList_none, List.append_nil]
      exact List.append_nil _

end Session

/-! ## The places -/

/-- All slots of the call, if it is a pass, lie in front of the end. -/
def EngineCall.StaysBelow (places : Nat) : EngineCall → Prop
  | .decode slots _ => ∀ slot ∈ slots, slot.position < places
  | _ => True

theorem Bounds.staysBelow_of_mem_asked {b : Bounds} {k : Nat} {draw : Option Token}
    {call : EngineCall} (h : call ∈ b.asked k draw) : call.StaysBelow b.places := by
  cases draw with
  | none => exact absurd h List.not_mem_nil
  | some token =>
    rcases List.mem_cons.1 h with rfl | h
    · trivial
    · split at h
      · next hk =>
        rw [List.mem_singleton.1 h]
        intro slot hslot
        have hle := BatchSlot.position_ofToken_le token (b.promptTokens + k) true
        rw [List.mem_singleton.1 hslot]
        unfold room at hk
        omega
      · exact absurd h List.not_mem_nil

/-- A prompt that is no longer than the cache stays in front of its end. -/
theorem Loaded.Prefills.onlyGot_staysBelow {E : Engine} {l l' : Loaded E.recorded}
    {rejectLongPrompts : Bool} {id : Nat} {prompt : String} {parseControl : Bool}
    {maxNewTokens : Nat} {w w' : E.recorded.World} {report : PrefillReport}
    (hp : l.Prefills rejectLongPrompts id prompt parseControl maxNewTokens w (.ok report, l', w'))
    {places : Nat} (hfits : report.promptTokens ≤ places) :
    Engine.OnlyGot (EngineCall.StaysBelow places) w w' := by
  cases hp with
  | @begun stop tokens _ batch context w₁ w₂ _ hstop htokens hne hreport htried hpasses =>
    have hlength : tokens.length ≤ places := by
      rw [hreport] at hfits
      exact hfits
    refine (onlyGot_of_prepareStop (fun _ _ => trivial) hstop).trans
      ((Engine.onlyGot_of_one (Engine.callsIn_of_tokenize htokens) trivial).trans
        ⟨_, Engine.callsIn_of_submitAll_eq_ok hpasses, fun call hcall => ?_⟩)
    obtain ⟨part, hpart, rfl⟩ := List.mem_map.1 hcall
    intro slot hslot
    exact Nat.lt_of_lt_of_le (position_lt_of_mem_promptSlots (mem_of_mem_chunks hpart hslot))
      hlength

namespace Session

variable {E : Engine} {b : Bounds}

theorem Runs.onlyGot_staysBelow {s : Session E.recorded} (h : s.Runs b) (k : Nat) :
    Engine.OnlyGot (EngineCall.StaysBelow b.places) s.world (s.stepped k).world := by
  induction k with
  | zero => exact .refl _ _
  | succ k ih =>
    rw [stepped_succ]
    exact ih.trans ⟨_, (h.goes k).calls_eq, fun call hcall => Bounds.staysBelow_of_mem_asked hcall⟩

/-! ## The length of a turn -/

/-- A turn that has begun, on a cache that its prompt fits into. -/
theorem runs_of_prefill {s₀ s : Session E} {prompt : String} {parseControl : Bool}
    {maxNewTokens : Nat} {report : PrefillReport}
    (hprefill : s₀.prefill prompt parseControl maxNewTokens = (.ok report, s))
    (hfits : report.promptTokens ≤ report.contextSize)
    (hquiet : ∀ k, (s.stepped k).Meets (Loaded.Undisturbed report.contextSize)) :
    s.Runs ⟨s₀.options.lengthLimit, report.promptTokens, maxNewTokens, report.contextSize⟩ := by
  obtain ⟨-, -, -, -, hoptions, -⟩ := exists_prefills_of_prefill hprefill
  obtain ⟨l, hl, ht⟩ := exists_turn_of_prefill hprefill
  exact ⟨hquiet, congrArg SessionOptions.lengthLimit hoptions, hfits, _,
    (turn?_of_loaded hl).trans ht, Bounds.reached_start _ _⟩

/-- **The exact length of a turn.**  If its steps are not disturbed, and its prompt fits into the
cache, then it puts so many tokens behind its prompt as its length and the cache leave room for.
They are the first of those that are drawn, each at its place, and one token more is drawn.  As long
as there is room no step gives a reason, and then the turn is over for its length, if it has that,
or else for the cache.  No place that is asked for, by the prompt or by a token, lies behind the end
of the cache. -/
theorem exact_length {s₀ s : Session E.recorded} {prompt : String} {parseControl : Bool}
    {maxNewTokens : Nat} {report : PrefillReport}
    (hprefill : s₀.prefill prompt parseControl maxNewTokens = (.ok report, s))
    (hfits : report.promptTokens ≤ report.contextSize)
    (hquiet : ∀ k, (s.stepped k).Meets (Loaded.Undisturbed report.contextSize)) :
    let length := if s₀.options.lengthLimit = .generated then report.promptTokens + maxNewTokens
      else maxNewTokens
    let room := min length report.contextSize - report.promptTokens
    let reason := if length ≤ report.contextSize then StopReason.maxLength else .contextFull
    let pass := fun (i : Nat) (token : Token) => EngineCall.decode
      [{ token, pos := Int32.ofNat (report.promptTokens + i), seqIds := [0], logits := true }] true
    (∃ tokens, s₀.promptTokens? prompt parseControl = some tokens ∧
      report.promptTokens = tokens.length) ∧
    (∀ k, ∃ asked, (s.stepped k).calls = s.calls ++ asked ∧
      asked.countP (fun call => decide call.IsPass) = min k room ∧
      asked.filter (fun call => decide call.IsPass) =
        ((s.draws (List.replicate k .step)).take room).mapIdx pass) ∧
    (∀ k, (s.draws (List.replicate k .step)).length = min k (room + 1)) ∧
    (∀ k reason', s.EndsWith (List.replicate k .step) reason' → reason' = reason ∧ room < k) ∧
    (∀ k, room + 1 < k → s.EndsWith (List.replicate k .step) reason) ∧
    ∀ k, ∃ asked, (s.stepped k).calls = s₀.calls ++ asked ∧
      ∀ call ∈ asked, call.StaysBelow report.contextSize := by
  intro length room reason pass
  have hruns := runs_of_prefill hprefill hfits hquiet
  obtain ⟨tokens, htokens, -, hcount, -⟩ := exists_tokens_of_prefill hprefill
  refine ⟨⟨tokens, htokens, hcount⟩, fun k => ?_, hruns.length_draws, hruns.ends.1, hruns.ends.2,
    fun k => ?_⟩
  · obtain ⟨asked, hcalls, hpasses⟩ := hruns.passes k
    refine ⟨asked, hcalls, ?_, hpasses⟩
    rw [List.countP_eq_length_filter, hpasses, List.length_mapIdx, List.length_take,
      hruns.length_draws]
    show min room (min k (room + 1)) = min k room
    omega
  · obtain ⟨l, l', -, -, -, hp⟩ := exists_prefills_of_prefill hprefill
    exact (hp.onlyGot_staysBelow hfits).trans (hruns.onlyGot_staysBelow k)

/-- A cache of five places, and a reply that might be the beginning of a marker for ever.  Two of
its tokens go into the cache, the third step gives the text that was held back, and the fourth the
reason. -/
theorem exact_length_of_small_cache :
    let script : Script := { filler := .ofByte 0x3c, contextSize := some 5 }
    let s₀ := (observed (E := script.engine) {} ({} : Script.World)).after [.load "model"]
    let s := (s₀.prefill "Hi" false 8).2
    s.EndsWith (List.replicate 4 .step) .contextFull ∧
      (∃ asked, (s.stepped 4).calls = s.calls ++ asked ∧
        asked.filter (fun call => decide call.IsPass) =
          [.decode [.ofToken (.ofByte 0x3c) 3 true] true,
            .decode [.ofToken (.ofByte 0x3c) 4 true] true]) ∧
      s.fragments (List.replicate 4 .step) = ["", "<", "<"] := by
  intro script s₀ s
  have hprefill : s₀.prefill "Hi" false 8 = (.ok ⟨1, 3, 11, 5⟩, s) :=
    prefill_eq_of_fst (by decide +kernel)
  have hbefore : ∀ k < 3, (s.stepped k).Meets (Loaded.Undisturbed 5) := by decide +kernel
  have hover : (s.stepped 3).turn?.map Turn.finished = some (some .contextFull) := by
    decide +kernel
  obtain ⟨t, ht, hf⟩ := Option.map_eq_some_iff.1 hover
  have hquiet := meets_stepped hbefore ht hf
  have hlimit : s₀.options.lengthLimit = .generated := by decide +kernel
  have hdraws : s.draws (List.replicate 4 .step) = List.replicate 3 (.ofByte 0x3c) := by
    decide +kernel
  obtain ⟨-, hpasses, -, -, hends, -⟩ := exact_length hprefill (by decide) hquiet
  rw [if_pos hlimit] at hpasses hends
  obtain ⟨asked, hcalls, -, hfilter⟩ := hpasses 4
  refine ⟨hends 4 (by decide), ⟨asked, hcalls, ?_⟩, by decide +kernel⟩
  rw [hfilter, hdraws]
  rfl

end Session
end LlmSession
