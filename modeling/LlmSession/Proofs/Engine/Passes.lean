import LlmSession.Session.Prefill
import Mathlib.Tactic.SplitIfs

/-!
# Passes over a batch

What a pass does with the slots that are handed to it, whatever engine makes it.  The slots are
staged in a batch, which may refuse them; the engine then gets exactly these slots, and may fail.
A list that is longer than a batch goes in parts, one pass for each, up to the first that fails.

To a caller a prompt is a list of slots, one for each token, and the passes are made over this list
as it is cut into parts.  A session comes by these slots in another way, part after part; that it
comes to the same is a theorem elsewhere.

* `promptSlots`, `Engine.submitAll`: the slots of a prompt, and passes one after the other.
* `TokenBatch.filled_of_fill_eq_ok`: the batch shows the slots that were staged.
* `Engine.submitSlots_cases`: the two ways of a pass.
* `promptSlots_eq_mapIdx`, `flatten_chunks`: the slots of a prompt one by one, and its parts put
  together.
* `Engine.not_isRefusal_of_submitAll`: how a pass cannot fail.
-/

namespace LlmSession

/-- Whether an error says that the operation makes no sense in the present state. -/
def SessionError.IsRefusal (e : SessionError) : Prop :=
  ∃ operation state, e = .invalidState operation state

/-- The words in which a failed pass is reported: those of the engine if it said that a pass failed,
and its wording of the error otherwise. -/
def SessionError.failureDetail : SessionError → String
  | .decodeFailed detail => detail
  | e => e.message

theorem SessionError.asDecodeFailure_eq (e : SessionError) :
    e.asDecodeFailure = .decodeFailed e.failureDetail := by
  cases e <;> rfl

/-- Two computations, one after the other, fail where the first does or where the second does. -/
theorem exists_of_bind_eq_error {ε α β : Type} {x : Except ε α} {f : α → Except ε β} {e : ε}
    (h : x >>= f = .error e) : x = .error e ∨ ∃ a, x = .ok a ∧ f a = .error e := by
  cases x with
  | error e' =>
    cases h
    exact Or.inl rfl
  | ok a => exact Or.inr ⟨a, rfl, h⟩

/-- Two computations, one after the other, succeed where both do. -/
theorem exists_of_bind_eq_ok {ε α β : Type} {x : Except ε α} {f : α → Except ε β} {b : β}
    (h : x >>= f = .ok b) : ∃ a, x = .ok a ∧ f a = .ok b := by
  cases x with
  | error e => cases h
  | ok a => exact ⟨a, rfl, h⟩

/-! ## Staging -/

namespace TokenBatch

theorem filled_of_foldlM_add_eq_ok {slots : List BatchSlot} {b b' : TokenBatch}
    (h : slots.foldlM add b = .ok b') : b'.filled = b.filled ++ slots := by
  induction slots generalizing b with
  | nil =>
    cases h
    exact (List.append_nil _).symm
  | cons slot slots ih =>
    rw [List.foldlM_cons] at h
    cases hadd : b.add slot with
    | error e =>
      rw [hadd] at h
      exact nomatch h
    | ok b₁ =>
      rw [hadd] at h
      rw [ih h, filled_of_add_eq_ok hadd, List.append_assoc, List.singleton_append]

/-- **A batch shows what was staged in it**, and nothing of earlier passes. -/
theorem filled_of_fill_eq_ok {slots : List BatchSlot} {b b' : TokenBatch}
    (h : b.fill slots = .ok b') : b'.filled = slots := by
  rw [filled_of_foldlM_add_eq_ok h, filled_clear, List.nil_append]

theorem not_isRefusal_of_add {slot : BatchSlot} {b : TokenBatch} {e : SessionError}
    (h : b.add slot = .error e) : ¬ e.IsRefusal := by
  rintro ⟨operation, state, rfl⟩
  unfold add at h
  split_ifs at h <;> cases h

theorem not_isRefusal_of_fill {slots : List BatchSlot} {b : TokenBatch} {e : SessionError}
    (h : b.fill slots = .error e) : ¬ e.IsRefusal := by
  unfold fill at h
  generalize b.clear = cleared at h
  induction slots generalizing cleared with
  | nil => exact nomatch h
  | cons slot slots ih =>
    rw [List.foldlM_cons] at h
    rcases exists_of_bind_eq_error h with h | ⟨b₁, -, h⟩
    · exact not_isRefusal_of_add h
    · exact ih b₁ h

theorem not_isRefusal_of_reserve {what : String} {bytes : Nat} {e : SessionError}
    (h : reserve what bytes = .error e) : ¬ e.IsRefusal := by
  rintro ⟨operation, state, rfl⟩
  unfold reserve at h
  split_ifs at h <;> cases h

/-- A batch that cannot be had is no refusal. -/
theorem not_isRefusal_of_allocate {capacity embeddingWidth maxSequences : Nat} {e : SessionError}
    (h : allocate capacity embeddingWidth maxSequences = .error e) : ¬ e.IsRefusal := by
  rintro ⟨operation, state, rfl⟩
  unfold allocate at h
  split_ifs at h
  · cases h
  · cases h
  · cases h
  rcases exists_of_bind_eq_error h with h | ⟨-, -, h⟩
  · exact not_isRefusal_of_reserve h ⟨operation, state, rfl⟩
  rcases exists_of_bind_eq_error h with h | ⟨-, -, h⟩
  · exact not_isRefusal_of_reserve h ⟨operation, state, rfl⟩
  rcases exists_of_bind_eq_error h with h | ⟨-, -, h⟩
  · exact not_isRefusal_of_reserve h ⟨operation, state, rfl⟩
  · cases h

end TokenBatch

/-! ## The slots of a prompt, and its parts -/

/-- The slots of the tokens from position `pos` on; the last one asks for a distribution. -/
def slotsFrom (pos : Nat) : List Token → List BatchSlot
  | [] => []
  | token :: tokens => .ofToken token pos tokens.isEmpty :: slotsFrom (pos + 1) tokens

/-- The slots of a prompt. -/
def promptSlots (tokens : List Token) : List BatchSlot := slotsFrom 0 tokens

@[simp] theorem length_slotsFrom (pos : Nat) (tokens : List Token) :
    (slotsFrom pos tokens).length = tokens.length := by
  induction tokens generalizing pos with
  | nil => rfl
  | cons token tokens ih => simp [slotsFrom, ih]

/-- Each token has the position of its place, and the last one asks for a distribution. -/
theorem slotsFrom_eq_mapIdx (pos : Nat) (tokens : List Token) :
    slotsFrom pos tokens =
      tokens.mapIdx fun i token => .ofToken token (pos + i) (decide (i + 1 = tokens.length)) := by
  induction tokens generalizing pos with
  | nil => rfl
  | cons token tokens ih =>
    have hends : tokens.isEmpty = decide (0 + 1 = (token :: tokens).length) := by
      cases tokens <;> rfl
    rw [slotsFrom, List.mapIdx_cons, ih, hends]
    congr 2
    funext i token'
    congr 1
    · exact Nat.add_right_comm pos 1 i
    · exact decide_eq_decide.2 Nat.add_right_cancel_iff.symm

theorem promptSlots_eq_mapIdx (tokens : List Token) :
    promptSlots tokens = tokens.mapIdx fun i token =>
      { token, pos := Int32.ofNat i, seqIds := [0], logits := decide (i + 1 = tokens.length) } := by
  rw [promptSlots, slotsFrom_eq_mapIdx]
  simp only [Nat.zero_add, BatchSlot.ofToken]

/-- The parts, put together, are the list. -/
theorem flatten_chunks {α : Type} (n : Nat) (as : List α) : (chunks n as).flatten = as := by
  fun_induction chunks n as with
  | case1 => rfl
  | case2 a as ih => rw [List.flatten_cons, ih, List.cons_append, List.take_append_drop]

/-- No part is empty. -/
theorem ne_nil_of_mem_chunks {α : Type} {n : Nat} {as part : List α} (h : part ∈ chunks n as) :
    part ≠ [] := by
  fun_induction chunks n as with
  | case1 => exact absurd h List.not_mem_nil
  | case2 a as ih =>
    rcases List.mem_cons.1 h with rfl | h
    · exact List.cons_ne_nil _ _
    · exact ih h

/-- The last slot of a prompt asks for a distribution. -/
theorem exists_getLast?_slotsFrom (pos : Nat) {tokens : List Token} (h : tokens ≠ []) :
    ∃ slot, (slotsFrom pos tokens).getLast? = some slot ∧ slot.logits = true := by
  induction tokens generalizing pos with
  | nil => exact absurd rfl h
  | cons token tokens ih =>
    cases tokens with
    | nil => exact ⟨.ofToken token pos true, rfl, rfl⟩
    | cons next tokens =>
      obtain ⟨slot, hslot, hlogits⟩ := ih (pos + 1) (List.cons_ne_nil _ _)
      refine ⟨slot, ?_, hlogits⟩
      rw [slotsFrom, slotsFrom, List.getLast?_cons_cons, ← slotsFrom, hslot]

/-! ## One pass, and one after the other -/

namespace Engine

/-- Makes one pass after the other, up to the first that fails. -/
def submitAll (E : Engine) : List (List BatchSlot) → TokenBatch → E.Context → E.World →
    Except SessionError Unit × TokenBatch × E.Context × E.World
  | [], batch, context, w => (.ok (), batch, context, w)
  | slots :: rest, batch, context, w =>
    match E.submitSlots slots batch context w with
    | (.error e, batch, context, w) => (.error e, batch, context, w)
    | (.ok (), batch, context, w) => submitAll E rest batch context w

variable {E : Engine} {batch batch' : TokenBatch} {context context' : E.Context}
  {w w' : E.World}

/-- A pass is not made, because the batch refuses the slots, or the engine gets just them. -/
theorem submitSlots_cases {slots : List BatchSlot} {outcome : Except SessionError Unit}
    (h : E.submitSlots slots batch context w = (outcome, batch', context', w')) :
    (∃ e, batch.fill slots = .error e ∧ outcome = .error e ∧ context' = context ∧ w' = w) ∨
      batch'.filled = slots ∧ E.submit batch' context w = (outcome, context', w') := by
  unfold submitSlots at h
  cases hfill : batch.fill slots with
  | error e =>
    rw [hfill] at h
    cases h
    exact Or.inl ⟨e, rfl, rfl, rfl, rfl⟩
  | ok b =>
    rcases hsubmit : E.submit b context w with ⟨outcome', c, v⟩
    simp only [hfill, hsubmit] at h
    cases h
    exact Or.inr ⟨TokenBatch.filled_of_fill_eq_ok hfill, hsubmit⟩

/-- The error of a pass that the engine could not make is that of a failed pass. -/
theorem submit_cases {outcome : Except SessionError Unit}
    (h : E.submit batch context w = (outcome, context', w')) :
    outcome = .ok () ∧ E.decode batch context w = (.ok (), context', w') ∨
      ∃ e, outcome = .error e.asDecodeFailure ∧
        E.decode batch context w = (.error e, context', w') := by
  unfold submit at h
  rcases hdecode : E.decode batch context w with ⟨e | _, c, v⟩
  · rw [hdecode] at h
    cases h
    exact Or.inr ⟨e, rfl, rfl⟩
  · rw [hdecode] at h
    cases h
    exact Or.inl ⟨rfl, rfl⟩

theorem not_isRefusal_of_submitSlots {slots : List BatchSlot} {e : SessionError}
    (h : E.submitSlots slots batch context w = (.error e, batch', context', w')) :
    ¬ e.IsRefusal := by
  rcases submitSlots_cases h with ⟨e', hfill, he, -, -⟩ | ⟨-, hsubmit⟩
  · cases he
    exact TokenBatch.not_isRefusal_of_fill hfill
  · rcases submit_cases hsubmit with ⟨he, -⟩ | ⟨e', he, -⟩
    · exact nomatch he
    · cases he
      rintro ⟨operation, state, h⟩
      obtain ⟨detail, hdetail⟩ := e'.isDecodeFailure_asDecodeFailure
      rw [h] at hdetail
      exact nomatch hdetail

/-- Among the passes of `submitAll` one that does not fail is followed by the others. -/
theorem submitAll_cons {slots : List BatchSlot} {rest : List (List BatchSlot)}
    {outcome : Except SessionError Unit}
    (h : E.submitAll (slots :: rest) batch context w = (outcome, batch', context', w')) :
    (∃ e, outcome = .error e ∧
      E.submitSlots slots batch context w = (.error e, batch', context', w')) ∨
    ∃ batch₁ context₁ w₁, E.submitSlots slots batch context w = (.ok (), batch₁, context₁, w₁) ∧
      E.submitAll rest batch₁ context₁ w₁ = (outcome, batch', context', w') := by
  unfold submitAll at h
  rcases hslots : E.submitSlots slots batch context w with ⟨e | _, batch₁, context₁, w₁⟩
  · rw [hslots] at h
    cases h
    exact Or.inl ⟨e, rfl, rfl⟩
  · rw [hslots] at h
    exact Or.inr ⟨batch₁, context₁, w₁, rfl, h⟩

/-- A failed pass is never a refusal, whatever error the engine gave for it. -/
theorem not_isRefusal_of_submitAll {parts : List (List BatchSlot)} {e : SessionError}
    (h : E.submitAll parts batch context w = (.error e, batch', context', w')) :
    ¬ e.IsRefusal := by
  induction parts generalizing batch context w with
  | nil => exact nomatch h
  | cons slots rest ih =>
    rcases submitAll_cons h with ⟨e', he, hslots⟩ | ⟨batch₁, context₁, w₁, -, hrest⟩
    · cases he
      exact not_isRefusal_of_submitSlots hslots
    · exact ih hrest

end Engine
end LlmSession
