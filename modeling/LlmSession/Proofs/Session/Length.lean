import LlmSession.Proofs.Session.Cache
import LlmSession.Proofs.Worker.Drain

/-!
# How long a turn can be

A caller asks for one step after the other, and a stream does so by itself for as long as the steps
release no text.  An engine may draw tokens without any bytes, or bytes that are always the beginning
of a marker, so nothing that is released bounds the number of steps.  What bounds it is the cache.
A step that does not end the turn puts a token into it, and before that the cursor was in front of
the end of the cache and of the end of the turn.

## One call more than one would think

Of a turn that may put `K` tokens into the cache, `K` steps can do so, and the next one ends it.  But
that one may still have text to give, which was held back as the possible beginning of a marker.
Then the reason comes only with the step after it, the `K + 2`nd.

The steps of one turn need not follow on each other, since the session may be asked for anything
else in between.  So they are picked out of a run (`Session.stepCalls`), with what each of them asked
the engine for.

## Main statements

* `Session.Performs.movesTurn`: what an operation does to the turn.
* `Session.spends_of_step`: what a step takes of the tokens that are left to the turn.
* `Session.stepCalls_of_running`: what the steps of a turn take, one after the other.
* `Session.turn_ends`: the length of a turn.
-/

namespace LlmSession

instance : DecidablePred EngineCall.IsPass
  | .decode _ _ => isTrue trivial
  | .loadModel _ _ _ => isFalse id
  | .newContext _ _ => isFalse id
  | .newSampler _ => isFalse id
  | .tokenize _ _ _ _ => isFalse id
  | .sample _ => isFalse id
  | .clearMemory _ => isFalse id

/-! ## The tokens that are left -/

namespace Turn

/-- How many tokens a turn may still put into a cache with so many places. -/
def tokensLeft (t : Turn) (limit : LengthLimit) (places : Nat) : Nat :=
  match t.finished with
  | some _ => 0
  | none => min (limit.ceiling t.promptTokens t.maxNewTokens) places - t.cursor

theorem tokensLeft_of_running {t : Turn} (hf : t.finished = none) (limit : LengthLimit)
    (places : Nat) : t.tokensLeft limit places =
      min (limit.ceiling t.promptTokens t.maxNewTokens) places - t.cursor := by
  rw [tokensLeft, hf]

theorem tokensLeft_start (id promptTokens maxNewTokens : Nat) (limit : LengthLimit)
    (places : Nat) : (start id promptTokens maxNewTokens).tokensLeft limit places =
      min (limit.ceiling promptTokens maxNewTokens) places - promptTokens := rfl

theorem interrupt_of_finished {t : Turn} {reason : StopReason} (hf : t.finished = some reason) :
    t.interrupt = t := by
  rw [interrupt, hf]

theorem finished_interrupt_of_running {t : Turn} (hf : t.finished = none) :
    t.interrupt.finished = some .interrupted := by
  rw [interrupt, hf]

end Turn

namespace Loaded

variable {E : Engine} {l : Loaded E} {limit : LengthLimit} {t : Turn}

/-- A token that does not end the turn finds room for itself. -/
theorem cursor_lt_of_verdict {token : Token} (h : l.verdict limit t token = none) :
    t.cursor < limit.ceiling t.promptTokens t.maxNewTokens ∧
      t.cursor < (E.contextSize l.context).toNat := by
  unfold verdict at h
  split at h
  · exact nomatch h
  split at h
  · exact nomatch h
  split at h
  · exact nomatch h
  split at h
  · exact nomatch h
  next hlength hroom =>
    exact ⟨LengthLimit.lt_ceiling_of_not_reached (Bool.eq_false_iff.2 hlength),
      Nat.lt_of_not_le hroom⟩

/-- So there is a token left to the turn, as long as the cache has no more than so many places. -/
theorem tokensLeft_pos_of_verdict {token : Token} {places : Nat}
    (hplaces : (E.contextSize l.context).toNat ≤ places) (hf : t.finished = none)
    (h : l.verdict limit t token = none) : 0 < t.tokensLeft limit places := by
  have hroom := cursor_lt_of_verdict h
  rw [Turn.tokensLeft_of_running hf]
  omega

/-- A token that is put into the cache is one of those that are left. -/
theorem tokensLeft_taken {places : Nat} (hf : t.finished = none) (piece : List UInt8)
    (hroom : 0 < t.tokensLeft limit places) :
    let t' : Turn := { (l.release (t.append piece)).2 with cursor := t.cursor + 1 }
    t'.finished = none ∧ t'.tokensLeft limit places + 1 = t.tokensLeft limit places := by
  intro t'
  have hrunning : t'.finished = none := (l.finished_release t piece).trans hf
  have hprompt : t'.promptTokens = t.promptTokens := l.promptTokens_release t piece
  have hmax : t'.maxNewTokens = t.maxNewTokens := l.maxNewTokens_release t piece
  have hcursor : t'.cursor = t.cursor + 1 := rfl
  refine ⟨hrunning, ?_⟩
  rw [Turn.tokensLeft_of_running hf] at hroom
  rw [Turn.tokensLeft_of_running hf, Turn.tokensLeft_of_running hrunning, hprompt, hmax, hcursor]
  omega

end Loaded

/-! ## What an operation does to the turn -/

/-- Whether an operation asks for a step of turn `id`, if that is the current one. -/
def Operation.isStepOf (id : Nat) : Operation → Bool
  | .step => true
  | .stepFor id' => decide (id' = id)
  | _ => false

namespace Session

variable {E : Engine} {s : Session E} {op : Operation} {id : Nat}
  {result : Except SessionError Answer × Session E}

/-- The turn stays, is interrupted, is given up or makes room for a new one; or the operation was a
step of it. -/
inductive MovesTurn (s : Session E) (op : Operation) (s' : Session E) : Prop where
  | kept (h : s'.turn? = s.turn?)
  | interrupted (h : s'.turn? = s.turn?.map Turn.interrupt)
  | gone (h : s'.turn? = none)
  | begun (h : s'.turnId? = some s.nextTurnId)
  | stepped {t : Turn} (ht : s.turn? = some t) (hop : op.isStepOf t.id = true)

theorem turn?_of_loaded {l : Loaded E} (hl : s.phase = .loaded l) : s.turn? = l.turn := by
  simp only [turn?, loaded?, hl, Option.bind_some]

theorem turnId?_of_turn? {t : Turn} (ht : s.turn? = some t) : s.turnId? = some t.id := by
  rw [turnId?, ht]
  rfl

/-- **An operation** that is not a step leaves the turn as it was, or ends it. -/
theorem Performs.movesTurn (hp : s.Performs op result) : s.MovesTurn op result.2 := by
  induction hp with
  | notIdle _ => exact .kept rfl
  | notLoaded _ _ => exact .kept rfl
  | noTurn _ _ => exact .kept rfl
  | replaced _ _ => exact .kept rfl
  | finished _ _ _ => exact .kept rfl
  | loadFailed _ _ => exact .kept rfl
  | loaded _ ha =>
    cases ha
    exact .gone rfl
  | faulted _ _ => exact .gone rfl
  | reloaded _ _ => exact .gone rfl
  | notBegun _ hp => exact .gone ((turn?_of_loaded rfl).trans hp.turn_of_error)
  | begun _ hp => exact .begun ((turnId?_of_loaded rfl).trans hp.turn_of_ok.2)
  | stepped hl ht hf hstep => exact .stepped ((turn?_of_loaded hl).trans ht) rfl
  | stepFor hid _ ih =>
    cases ih with
    | kept h => exact .kept h
    | interrupted h => exact .interrupted h
    | gone h => exact .gone h
    | begun h => exact .begun h
    | stepped ht hop => exact .stepped ht (decide_eq_true (hid _ (turnId?_of_turn? ht)).symm)
  | cleared hl _ => exact .interrupted (by rw [turn?_of_loaded rfl, turn?_of_loaded hl])
  | measured hl _ => exact .interrupted (by rw [turn?_of_loaded rfl, turn?_of_loaded hl])
  | unloaded => exact .gone rfl

/-- **Between its steps** a turn stays, or is interrupted, or is gone for ever. -/
theorem turn?_perform_cases {t : Turn} (ht : s.turn? = some t) (hid : t.id < s.nextTurnId)
    (hop : op.isStepOf t.id = false) :
    (s.perform op).2.turn? = some t ∨ (s.perform op).2.turn? = some t.interrupt ∨
      (s.perform op).2.IsStale t.id := by
  have hnext : t.id < (s.perform op).2.nextTurnId :=
    Nat.lt_of_lt_of_le hid (s.performs op).renumbers.nextTurnId_le
  cases (s.performs op).movesTurn with
  | kept h => exact Or.inl (h.trans ht)
  | interrupted h => exact Or.inr (Or.inl (by rw [h, ht]; rfl))
  | gone h =>
    refine Or.inr (Or.inr ⟨hnext, ?_⟩)
    rw [turnId?, h]
    exact (Option.some_ne_none t.id).symm
  | begun h =>
    refine Or.inr (Or.inr ⟨hnext, ?_⟩)
    rw [h]
    exact fun heq => Nat.ne_of_gt hid (Option.some.inj heq)
  | stepped ht' hop' =>
    rw [ht] at ht'
    cases ht'
    exact absurd (hop.symm.trans hop') Bool.false_ne_true

/-- An operation that asks for a step of the current turn is a step. -/
theorem perform_of_isStepOf (hid : s.turnId? = some id) (hop : op.isStepOf id = true) :
    s.perform op = (s.decodeStep.1.map .stepped, s.decodeStep.2) := by
  cases op with
  | step => rfl
  | stepFor id' =>
    have heq : id = id' := (of_decide_eq_true hop).symm
    rw [perform, decodeStepFor, hid]
    dsimp only
    rw [if_pos heq]
  | _ => cases hop

/-- Once a turn is over, a step of it gives the reason and changes nothing. -/
theorem decodeStep_of_finished {t : Turn} {reason : StopReason} (ht : s.turn? = some t)
    (hf : t.finished = some reason) : s.decodeStep = (.ok (.endOfStream reason), s) := by
  obtain ⟨l, -, hl, ht⟩ := exists_loaded_of_turn? ht
  simp only [decodeStep, hl, ht, hf]

end Session

/-! ## The steps of one turn -/

/-- A step, as the session under observation made it. -/
structure StepCall where
  /-- The places of the cache at that moment. -/
  places : Nat
  /-- What came back. -/
  answer : Except SessionError Answer
  /-- What the engine was asked for, oldest first. -/
  asked : List EngineCall

/-- Whether the step handed its token to the engine. -/
def StepCall.Resubmits (call : StepCall) : Prop := ∃ asked ∈ call.asked, asked.IsPass

instance : DecidablePred StepCall.Resubmits := fun call =>
  inferInstanceAs (Decidable (∃ asked ∈ call.asked, asked.IsPass))

namespace Session

variable {E : Engine} {s : Session E.recorded} {op : Operation} {id : Nat}

/-- An operation as a step. -/
def stepCall (s : Session E.recorded) (op : Operation) : StepCall where
  places := (s.contextSize?.map UInt32.toNat).getD 0
  answer := (s.perform op).1
  asked := (s.perform op).2.calls.drop s.calls.length

/-- The steps of turn `id` in a run. -/
def stepCalls (s : Session E.recorded) (id : Nat) : List Operation → List StepCall
  | [] => []
  | op :: ops =>
    if s.turnId? = some id ∧ op.isStepOf id = true then
      s.stepCall op :: (s.perform op).2.stepCalls id ops
    else (s.perform op).2.stepCalls id ops

theorem stepCalls_cons_of_isStepOf (hid : s.turnId? = some id) (hop : op.isStepOf id = true)
    (ops : List Operation) :
    s.stepCalls id (op :: ops) = s.stepCall op :: (s.perform op).2.stepCalls id ops :=
  if_pos ⟨hid, hop⟩

theorem stepCalls_cons_of_not_isStepOf (hop : op.isStepOf id = false) (ops : List Operation) :
    s.stepCalls id (op :: ops) = (s.perform op).2.stepCalls id ops :=
  if_neg fun h => Bool.false_ne_true (hop.symm.trans h.2)

/-- A turn that is gone takes no steps. -/
theorem stepCalls_of_isStale (h : s.IsStale id) (ops : List Operation) :
    s.stepCalls id ops = [] := by
  induction ops generalizing s with
  | nil => rfl
  | cons op ops ih =>
    rw [stepCalls, if_neg fun hstep => h.turnId?_ne hstep.1]
    exact ih (h.performs (s.performs op))

theorem asked_stepCall {new : List EngineCall} (h : (s.perform op).2.calls = s.calls ++ new) :
    (s.stepCall op).asked = new := by
  rw [stepCall, h, List.drop_left]

/-- The step of a turn that is over gives the reason, and asks the engine for nothing. -/
theorem stepCall_of_finished {t : Turn} {reason : StopReason} (ht : s.turn? = some t)
    (hf : t.finished = some reason) (hop : op.isStepOf t.id = true) :
    reason? (s.stepCall op).answer = some reason ∧ ¬ (s.stepCall op).Resubmits ∧
      (s.perform op).2 = s := by
  have hperform : s.perform op = (.ok (.stepped (.endOfStream reason)), s) := by
    rw [perform_of_isStepOf (turnId?_of_turn? ht) hop, decodeStep_of_finished ht hf]
    rfl
  have hcalls : (s.perform op).2.calls = s.calls ++ [] := by
    rw [hperform, List.append_nil]
  refine ⟨by rw [stepCall, hperform]; rfl, ?_, by rw [hperform]⟩
  rw [StepCall.Resubmits, asked_stepCall hcalls]
  rintro ⟨asked, hasked, -⟩
  exact List.not_mem_nil hasked

/-- **A turn that is over** gives its reason at every step, and resubmits nothing. -/
theorem stepCalls_of_finished {t : Turn} {reason : StopReason} (ht : s.turn? = some t)
    (hf : t.finished = some reason) (hid : t.id < s.nextTurnId) (ops : List Operation) :
    ∀ call ∈ s.stepCalls t.id ops, reason? call.answer = some reason ∧ ¬ call.Resubmits := by
  induction ops generalizing s with
  | nil => exact nofun
  | cons op ops ih =>
    intro call hcall
    have hnext : t.id < (s.perform op).2.nextTurnId :=
      Nat.lt_of_lt_of_le hid (s.performs op).renumbers.nextTurnId_le
    cases hop : op.isStepOf t.id with
    | true =>
      obtain ⟨hreason, hasked, hsame⟩ := stepCall_of_finished ht hf hop
      rw [stepCalls_cons_of_isStepOf (turnId?_of_turn? ht) hop] at hcall
      rcases List.mem_cons.1 hcall with rfl | hcall
      · exact ⟨hreason, hasked⟩
      · rw [hsame] at hcall
        exact ih ht hid call hcall
    | false =>
      rw [stepCalls_cons_of_not_isStepOf hop] at hcall
      rcases turn?_perform_cases ht hid hop with ht' | ht' | hstale
      · exact ih ht' hnext call hcall
      · rw [Turn.interrupt_of_finished hf] at ht'
        exact ih ht' hnext call hcall
      · rw [stepCalls_of_isStale hstale] at hcall
        exact absurd hcall List.not_mem_nil

/-- What a step takes of the tokens that are left to a turn that is not over. -/
inductive Spends (t : Turn) (limit : LengthLimit) (places : Nat) (call : StepCall)
    (s' : Session E.recorded) : Prop where
  /-- A token more is in the cache, and one less is left. -/
  | taken {t' : Turn} (hturn : s'.turn? = some t') (hid : t'.id = t.id) (hf : t'.finished = none)
    (hleft : t'.tokensLeft limit places + 1 = t.tokensLeft limit places)
  /-- The turn is over, and the token was not handed on. -/
  | ended {t' : Turn} {reason : StopReason} (hturn : s'.turn? = some t') (hid : t'.id = t.id)
    (hf : t'.finished = some reason) (hasked : ¬ call.Resubmits)
  /-- The turn is lost. -/
  | lost (hturn : s'.turn? = none) (hanswer : fragment? call.answer = none)
    (hleft : call.Resubmits → 0 < t.tokensLeft limit places)

theorem not_resubmits_of_asked {token : Token} {call : StepCall} (h : call.asked = [.sample token]) :
    ¬ call.Resubmits := by
  rw [StepCall.Resubmits, h]
  rintro ⟨asked, hasked, hpass⟩
  rw [List.mem_singleton.1 hasked] at hpass
  exact hpass

/-- **A step of a turn that is not over** takes one of the tokens that are left, or is the last. -/
theorem spends_of_step {t : Turn} {places : Nat} (ht : s.turn? = some t) (hf : t.finished = none)
    (hop : op.isStepOf t.id = true) (hplaces : (s.stepCall op).places ≤ places) :
    Spends t s.options.lengthLimit places (s.stepCall op) (s.perform op).2 := by
  obtain ⟨l, hloaded, hl, hturn⟩ := exists_loaded_of_turn? ht
  obtain ⟨outcome, l', w', hstep, hdecode⟩ := decodeStep_of_running hl hturn hf
  have hperform : s.perform op =
      (outcome.map .stepped, { s with world := w', phase := .loaded l' }) := by
    rw [perform_of_isStepOf (turnId?_of_turn? ht) hop, hdecode]
  have hanswer : (s.stepCall op).answer = outcome.map .stepped := by rw [stepCall, hperform]
  have hturn' : (s.perform op).2.turn? = l'.turn := by rw [hperform]; rfl
  have hcalls : (s.perform op).2.calls = Engine.callsIn w' := by rw [hperform]; rfl
  have hsize : (E.recorded.contextSize l.context).toNat ≤ places := by
    rw [stepCall, contextSize?, hloaded] at hplaces
    exact hplaces
  have hid := fun t' (ht' : l'.turn = some t') => hstep.id_eq ht'
  -- a step that has only drawn its token has not handed it on
  have hdrawn (hw : w' = l.drawnWorld s.world) : ¬ (s.stepCall op).Resubmits := by
    have hdraw := Engine.callsIn_sample l.sampler l.context s.world
    rw [← Loaded.drawnWorld, ← hw] at hdraw
    exact not_resubmits_of_asked (asked_stepCall (hcalls.trans hdraw))
  cases hstep with
  | verdict hv => exact .ended hturn' (hid _ rfl) (Turn.finished_finish t _) (hdrawn rfl)
  | noBytes hv hd =>
    refine .lost hturn' ?_ fun hasked => absurd hasked (hdrawn rfl)
    rw [hanswer]
    rfl
  | marker hv hd hm => exact .ended hturn' (hid _ rfl) (Turn.finished_cutAt _ _) (hdrawn rfl)
  | @taken piece batch context _ hv hd hm hpass =>
    have hroom := Loaded.tokensLeft_pos_of_verdict hsize hf hv
    obtain ⟨hrunning, hleft⟩ := Loaded.tokensLeft_taken hf piece hroom
    exact .taken hturn' (hid _ rfl) hrunning hleft
  | lost hv hd hm hpass =>
    refine .lost hturn' ?_ fun _ => Loaded.tokensLeft_pos_of_verdict hsize hf hv
    rw [hanswer]
    rfl

/-! ### One step after the other -/

/-- The steps of a turn that has room for so many tokens.  No more of them resubmit, and after these
and one more that gave text, a step gives the reason. -/
structure EndsIn (room : Nat) (calls : List StepCall) : Prop where
  countP_le : calls.countP (fun call => call.Resubmits) ≤ room
  reason_ne : ∀ k call, room < k → calls[k]? = some call →
    (∀ earlier ∈ calls.take k, fragment? earlier.answer ≠ none) → reason? call.answer ≠ none

variable {room : Nat} {calls : List StepCall} {call : StepCall}

/-- Steps that all give a reason, without resubmitting, need no room. -/
theorem endsIn_of_forall (h : ∀ call ∈ calls, reason? call.answer ≠ none ∧ ¬ call.Resubmits)
    (room : Nat) : EndsIn room calls := by
  have hcount : calls.countP (fun call => call.Resubmits) = 0 := by
    rw [List.countP_eq_zero]
    intro call hcall
    rw [decide_eq_true_eq]
    exact (h call hcall).2
  refine ⟨Nat.le_trans (Nat.le_of_eq hcount) (Nat.zero_le room), ?_⟩
  intro k call _ hcall _
  exact (h call (List.mem_of_getElem? hcall)).1

theorem endsIn_nil (room : Nat) : EndsIn room [] := by
  apply endsIn_of_forall
  intro call hcall
  exact absurd hcall List.not_mem_nil

/-- A step more takes room for one token more. -/
theorem EndsIn.cons (h : EndsIn room calls) (call : StepCall) :
    EndsIn (room + 1) (call :: calls) := by
  refine ⟨?_, ?_⟩
  · have hcount := h.countP_le
    rw [List.countP_cons]
    split <;> omega
  · intro k later hk hlater hearlier
    cases k with
    | zero => exact absurd hk (Nat.not_lt_zero _)
    | succ k =>
      rw [List.take_succ_cons] at hearlier
      refine h.reason_ne k later (Nat.lt_of_succ_lt_succ hk) hlater ?_
      intro earlier hmem
      exact hearlier earlier (List.mem_cons_of_mem _ hmem)

/-- The step that ends a turn takes no room, though it may not give the reason yet. -/
theorem endsIn_cons_of_forall (hcall : ¬ call.Resubmits)
    (h : ∀ later ∈ calls, reason? later.answer ≠ none ∧ ¬ later.Resubmits) (room : Nat) :
    EndsIn room (call :: calls) := by
  refine ⟨?_, ?_⟩
  · have hcount := (endsIn_of_forall h 0).countP_le
    rw [List.countP_cons, if_neg (by rw [decide_eq_true_eq]; exact hcall)]
    omega
  · intro k later hk hlater _
    cases k with
    | zero => exact absurd hk (Nat.not_lt_zero _)
    | succ k => exact (h later (List.mem_of_getElem? hlater)).1

/-- The step that loses a turn is the last. -/
theorem endsIn_singleton (hanswer : fragment? call.answer = none)
    (hroom : call.Resubmits → 0 < room) : EndsIn room [call] := by
  refine ⟨?_, ?_⟩
  · rw [List.countP_singleton]
    split
    · next hresubmits => exact hroom (of_decide_eq_true hresubmits)
    · exact Nat.zero_le room
  · intro k later hk _ hearlier
    cases k with
    | zero => exact absurd hk (Nat.not_lt_zero _)
    | succ k => exact absurd hanswer (hearlier call List.mem_cons_self)

/-- **The steps of a turn that is not over** end in the tokens that are left to it. -/
theorem stepCalls_of_running {t : Turn} {places : Nat} (ht : s.turn? = some t)
    (hf : t.finished = none) (hid : t.id < s.nextTurnId) (ops : List Operation)
    (hplaces : ∀ call ∈ s.stepCalls t.id ops, call.places ≤ places) :
    EndsIn (t.tokensLeft s.options.lengthLimit places) (s.stepCalls t.id ops) := by
  induction ops generalizing s t with
  | nil => exact endsIn_nil _
  | cons op ops ih =>
    have hnext : t.id < (s.perform op).2.nextTurnId :=
      Nat.lt_of_lt_of_le hid (s.performs op).renumbers.nextTurnId_le
    have hoptions : (s.perform op).2.options = s.options := options_after s [op]
    -- a turn that is over, under its old number, gives its reason from here on
    have hover {t' : Turn} {reason : StopReason} (ht' : (s.perform op).2.turn? = some t')
        (hid' : t'.id = t.id) (hf' : t'.finished = some reason) :
        ∀ call ∈ (s.perform op).2.stepCalls t.id ops,
          reason? call.answer ≠ none ∧ ¬ call.Resubmits := by
      intro call hcall
      rw [← hid'] at hnext hcall
      obtain ⟨hreason, hasked⟩ := stepCalls_of_finished ht' hf' hnext ops call hcall
      refine ⟨?_, hasked⟩
      rw [hreason]
      exact Option.some_ne_none reason
    cases hop : op.isStepOf t.id with
    | false =>
      rw [stepCalls_cons_of_not_isStepOf hop] at hplaces ⊢
      rcases turn?_perform_cases ht hid hop with ht' | ht' | hstale
      · have hrest := ih ht' hf hnext hplaces
        rwa [hoptions] at hrest
      · have hfinished := Turn.finished_interrupt_of_running hf
        exact endsIn_of_forall (hover ht' t.id_interrupt hfinished) _
      · rw [stepCalls_of_isStale hstale]
        exact endsIn_nil _
    | true =>
      rw [stepCalls_cons_of_isStepOf (turnId?_of_turn? ht) hop] at hplaces ⊢
      obtain ⟨hfirst, hrest⟩ := List.forall_mem_cons.1 hplaces
      cases spends_of_step ht hf hop hfirst with
      | @taken t' ht' hid' hf' hleft =>
        rw [← hid'] at hnext hrest ⊢
        have hends := ih ht' hf' hnext hrest
        rw [hoptions] at hends
        rw [← hleft]
        exact hends.cons _
      | ended ht' hid' hf' hasked => exact endsIn_cons_of_forall hasked (hover ht' hid' hf') _
      | lost ht' hanswer hleft =>
        have hstale : (s.perform op).2.IsStale t.id := by
          refine ⟨hnext, ?_⟩
          rw [turnId?, ht']
          exact (Option.some_ne_none t.id).symm
        rw [stepCalls_of_isStale hstale]
        exact endsIn_singleton hanswer hleft

end Session

/-! ## The length of a turn -/

namespace Session

variable {E : Engine}

/-- **Every turn ends.**  A turn that has begun may put as many tokens into the cache as its length
and the places of the cache leave in front of its prompt, whatever the engine draws and whatever
bytes and markers the tokens have.  The length counts the new tokens behind the prompt, or all
tokens.  No more steps resubmit than there is room for, and one step later, since that one may still
have text to give, the reason is there; unless a step failed before.  Between the steps the session
may be asked for anything.  So a stream makes a bounded number of steps, whether it is asked for the
next text or for all of it. -/
theorem turn_ends {s₀ s : Session E.recorded} {prompt : String} {parseControl : Bool}
    {maxNewTokens : Nat} {report : PrefillReport}
    (hprefill : s₀.prefill prompt parseControl maxNewTokens = (.ok report, s))
    (ops : List Operation) (places : Nat)
    (hplaces : ∀ call ∈ s.stepCalls report.turnId ops, call.places ≤ places) :
    let calls := s.stepCalls report.turnId ops
    let length := if s₀.options.lengthLimit = .generated then report.promptTokens + maxNewTokens
      else maxNewTokens
    let room := min length places - report.promptTokens
    (∃ tokens, s₀.promptTokens? prompt parseControl = some tokens ∧
      report.promptTokens = tokens.length) ∧
    calls.countP (fun call => call.Resubmits) ≤ room ∧
    (∀ k call, room < k → calls[k]? = some call →
      (∀ earlier ∈ calls.take k, fragment? earlier.answer ≠ none) →
      reason? call.answer ≠ none) ∧
    ∀ (w : Worker E.recorded) (stream : TurnStream) (conversation : Conversation),
      let steps := fun n => w.session.after (List.replicate n (.stepFor stream.report.turnId))
      (∃ n ≤ w.session.stepsLeft + 1, (w.nextOf stream).2.2.session = steps n) ∧
      (∃ n ≤ w.session.stepsLeft + 1, (w.collectText stream).2.session = steps n) ∧
      ∃ n ≤ w.session.stepsLeft + 1, (w.finishInto stream conversation).2.2.session = steps n := by
  intro calls length room
  obtain ⟨hid, hnext⟩ := turnId_of_prefill hprefill
  obtain ⟨l, hl, hturn⟩ := exists_turn_of_prefill hprefill
  have hoptions : s.options = s₀.options := by
    have h := options_after s₀ [.prefill prompt parseControl maxNewTokens]
    rwa [after, after, perform, hprefill] at h
  rw [← hid] at hturn
  have hlater : report.turnId < s.nextTurnId := by omega
  have hends := stepCalls_of_running ((turn?_of_loaded hl).trans hturn) rfl hlater ops hplaces
  rw [hoptions, Turn.tokensLeft_start, LengthLimit.ceiling_eq] at hends
  obtain ⟨tokens, htokens, -, hcount, -⟩ := exists_tokens_of_prefill hprefill
  refine ⟨⟨tokens, htokens, hcount⟩, hends.countP_le, hends.reason_ne, ?_⟩
  intro w stream conversation
  obtain ⟨n, hn, hdrain, -⟩ := stream.exists_steps_of_drain w.session
  obtain ⟨m, hrun, -, hpulled⟩ := stream.exists_steps_of_next w.session
  have hm : m ≤ w.session.stepsLeft + 1 := by
    rcases hpulled with ⟨_, -, hleft⟩ | ⟨-, -, hleft⟩ <;> omega
  exact ⟨⟨m, hm, hrun⟩, ⟨n, hn, (w.session_collectText stream).trans hdrain⟩,
    ⟨n, hn, (w.session_finishInto stream conversation).trans hdrain⟩⟩

/-- A cache of four places has room for two tokens.  The second one may be the beginning of a marker,
so the third step gives what was held back, and only the fourth one the reason. -/
theorem turn_ends_of_full_cache :
    let script : Script :=
      { replies := [.ofByte 0x68, .ofByte 0x3c, .ofByte 0x69], contextSize := some 4 }
    let loaded := (observed (E := script.engine) {} ({} : Script.World)).after [.load "model"]
    let calls := (loaded.prefill "a" false 8).2.stepCalls 1 [.step, .stepFor 1, .step, .step]
    (calls.map fun call => (fragment? call.answer, decide call.Resubmits)) =
        [(some "h", true), (some "", true), (some "<", false), (none, false)] ∧
      calls.countP (fun call => call.Resubmits) ≤ 2 ∧
      ∃ call, calls[3]? = some call ∧ reason? call.answer ≠ none := by
  intro script loaded calls
  have hprefill : loaded.prefill "a" false 8 = (.ok ⟨1, 2, 10, 4⟩, (loaded.prefill "a" false 8).2) :=
    prefill_eq_of_fst (by decide +kernel)
  have hplaces : ∀ call ∈ calls, call.places ≤ 4 := by decide +kernel
  have hroom : min (if loaded.options.lengthLimit = .generated then 2 + 8 else 8) 4 - 2 = 2 := by
    decide +kernel
  have hlast : calls[3]?.isSome = true := by decide +kernel
  have hearlier : ∀ earlier ∈ calls.take 3, fragment? earlier.answer ≠ none := by decide +kernel
  obtain ⟨call, hcall⟩ := Option.isSome_iff_exists.1 hlast
  obtain ⟨-, hcount, hends, -⟩ := turn_ends hprefill [.step, .stepFor 1, .step, .step] 4 hplaces
  refine ⟨by decide +kernel, Nat.le_trans hcount (Nat.le_of_eq hroom), call, hcall, ?_⟩
  exact hends 3 call (Nat.lt_of_le_of_lt (Nat.le_of_eq hroom) (Nat.lt_succ_self 2)) hcall hearlier

end Session
end LlmSession
