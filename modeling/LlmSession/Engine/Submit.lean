import LlmSession.Engine.Basic

/-!
# Handing a batch to the engine

The engine may fail at a forward pass in any way that it likes.  Whoever asked for the pass
gets one kind of error for it: the pass failed.  A cause of another kind is kept as its
wording.

`chunks` cuts a list into parts that fit a batch.
-/

namespace LlmSession

/-- The error of a failed forward pass, whatever error the engine gave for it. -/
def SessionError.asDecodeFailure : SessionError → SessionError
  | .decodeFailed detail => .decodeFailed detail
  | e => .decodeFailed e.message

/-- Whether an error is that of a failed forward pass. -/
def SessionError.IsDecodeFailure (e : SessionError) : Prop := ∃ detail, e = .decodeFailed detail

theorem SessionError.isDecodeFailure_asDecodeFailure (e : SessionError) :
    e.asDecodeFailure.IsDecodeFailure := by
  cases e <;> exact ⟨_, rfl⟩

/-- Consecutive parts of a list, each with `n` members but for the last, which may have
fewer.  A part is never empty. -/
def chunks {α : Type} (n : Nat) : List α → List (List α)
  | [] => []
  | a :: as => (a :: as.take (n - 1)) :: chunks n (as.drop (n - 1))
termination_by as => as.length
decreasing_by
  simp only [List.length_drop, List.length_cons]
  omega

@[simp] theorem chunks_nil {α : Type} (n : Nat) : chunks n ([] : List α) = [] := by
  rw [chunks]

theorem chunks_cons {α : Type} (n : Nat) (a : α) (as : List α) :
    chunks n (a :: as) = (a :: as.take (n - 1)) :: chunks n (as.drop (n - 1)) := by
  rw [chunks]

namespace Engine

variable (E : Engine)

/-- One forward pass over a batch. -/
def submit (batch : TokenBatch) (context : E.Context) (w : E.World) :
    Except SessionError Unit × E.Context × E.World :=
  match E.decode batch context w with
  | (.ok (), context, w) => (.ok (), context, w)
  | (.error e, context, w) => (.error e.asDecodeFailure, context, w)

/-- Stages the slots of one pass and makes it. -/
def submitSlots (slots : List BatchSlot) (batch : TokenBatch) (context : E.Context)
    (w : E.World) : Except SessionError Unit × TokenBatch × E.Context × E.World :=
  match batch.fill slots with
  | .error e => (.error e, batch, context, w)
  | .ok batch =>
    match E.submit batch context w with
    | (outcome, context, w) => (outcome, batch, context, w)

end Engine
end LlmSession
