import LlmSession.Power
import LlmSession.Session.Basic

/-!
# Beginning a turn

A turn begins with its prompt in the cache: token after token at the positions from zero on,
in passes of at most one batch, with a distribution asked for at the last token only.  Only
then is there a turn, and only then does it get its number.

The tokens are cut into parts, and the parts are counted.  So the position of a token comes
from the number of its part and its place in it, and the token that is the last of all is the
last of that part whose number the division gives.

Beginning a turn ends the one before it, even if no new turn comes of it.

## Main definitions

* `TokenBatch.stageChunk`, `Engine.submitChunks`: one part of a prompt, and all of them.
* `PrefillReport`: what is told about a turn that has begun.
* `Session.prefill`: begins a turn.
-/

namespace LlmSession

/-- The slot of one token of the first sequence. -/
def BatchSlot.ofToken (token : Token) (pos : Nat) (logits : Bool) : BatchSlot where
  token := token
  pos := Int32.ofNat pos
  seqIds := [0]
  logits := logits

/-! ## The parts of a prompt -/

namespace TokenBatch

/-- Adds tokens, each with its place in its part, at the positions from `start` on, up to the
first that is refused.  None of them asks for a distribution. -/
def addTokens (start : Nat) :
    List (Token × Nat) → TokenBatch → Except SessionError Unit × TokenBatch
  | [], batch => (.ok (), batch)
  | (token, i) :: rest, batch =>
    match batch.add (.ofToken token (start + i) false) with
    | .error e => (.error e, batch)
    | .ok batch => addTokens start rest batch

/-- Stages one part of a prompt, which begins at position `start`.  The last token of the last
part is to ask for a distribution. -/
def stageChunk (batch : TokenBatch) (start : Nat) (isLast : Bool) (chunk : List Token) :
    Except SessionError Unit × TokenBatch :=
  match addTokens start chunk.zipIdx batch.clear with
  | (.error e, batch) => (.error e, batch)
  | (.ok (), batch) =>
    if isLast then
      match batch.setLogits (chunk.length - 1) true with
      | .error e => (.error e, batch)
      | .ok batch => (.ok (), batch)
    else (.ok (), batch)

end TokenBatch

namespace Engine

variable (E : Engine)

/-- Hands over parts of `chunkLen` tokens, each with its number, up to the first that fails.
That with the number `lastChunk` is the last. -/
def submitChunks (chunkLen lastChunk : Nat) :
    List (List Token × Nat) → TokenBatch → E.Context → E.World →
      Except SessionError Unit × TokenBatch × E.Context × E.World
  | [], batch, context, w => (.ok (), batch, context, w)
  | (chunk, index) :: rest, batch, context, w =>
    match batch.stageChunk (index * chunkLen) (decide (index = lastChunk)) chunk with
    | (.error e, batch) => (.error e, batch, context, w)
    | (.ok (), batch) =>
      match E.submit batch context w with
      | (.error e, context, w) => (.error e, batch, context, w)
      | (.ok (), context, w) => submitChunks chunkLen lastChunk rest batch context w

/-- Puts a prompt into the cache, in parts that fit the batch. -/
def submitPrompt (tokens : List Token) (batch : TokenBatch) (context : E.Context)
    (w : E.World) : Except SessionError Unit × TokenBatch × E.Context × E.World :=
  let chunkLen := batch.capacity
  let lastChunk := (tokens.length - 1) / chunkLen
  E.submitChunks chunkLen lastChunk (chunks chunkLen tokens).zipIdx batch context w

end Engine

/-! ## The beginning of a turn -/

/-- What is told about a turn that has begun. -/
structure PrefillReport where
  /-- The number of the turn. -/
  turnId : Nat
  /-- The tokens of the prompt. -/
  promptTokens : Nat
  /-- The places in the cache that the turn needs. -/
  required : Nat
  /-- The places that there are. -/
  contextSize : Nat
  deriving DecidableEq, Repr

namespace PrefillReport

/-- The report on a turn with so many tokens in its prompt and so many new ones at most. -/
def ofCounts (turnId promptTokens maxNewTokens contextSize : Nat) : PrefillReport where
  turnId := turnId
  promptTokens := promptTokens
  required := promptTokens + maxNewTokens
  contextSize := contextSize

/-- Whether the turn needs more places than there are. -/
def exceedsContext (r : PrefillReport) : Bool := decide (r.contextSize < r.required)

/-- Why a turn is not tried: the places that it needs are no word of 64 bits, or they are more
than there are and such turns are not wanted. -/
def refusal? (r : PrefillReport) (rejectLongPrompts : Bool) : Option SessionError :=
  if twoTo 64 ≤ r.required then some .overflow
  else if rejectLongPrompts && r.exceedsContext then
    some (.promptTooLong r.required r.contextSize)
  else none

/-- There are two reasons not to try a turn. -/
theorem refusal?_cases {r : PrefillReport} {rejectLongPrompts : Bool} {e : SessionError}
    (h : r.refusal? rejectLongPrompts = some e) :
    e = .overflow ∧ twoTo 64 ≤ r.required ∨
      e = .promptTooLong r.required r.contextSize ∧ r.required < twoTo 64 ∧
        rejectLongPrompts = true ∧ r.exceedsContext = true := by
  unfold refusal? at h
  split at h
  · next hword =>
    cases h
    exact Or.inl ⟨rfl, hword⟩
  next hword =>
  split at h
  · next hlong =>
    cases h
    exact Or.inr ⟨rfl, Nat.lt_of_not_le hword, Bool.and_eq_true_iff.1 hlong⟩
  · exact nomatch h

/-- A turn is tried if neither holds. -/
theorem refusal?_eq_none_iff {r : PrefillReport} {rejectLongPrompts : Bool} :
    r.refusal? rejectLongPrompts = none ↔
      r.required < twoTo 64 ∧ (rejectLongPrompts = true → r.exceedsContext = false) := by
  unfold refusal?
  split
  · next hword => exact iff_of_false nofun fun h => Nat.not_lt.2 hword h.1
  next hword =>
  have hlt : r.required < twoTo 64 := Nat.lt_of_not_le hword
  cases rejectLongPrompts with
  | false => exact iff_of_true rfl ⟨hlt, nofun⟩
  | true =>
    cases r.exceedsContext with
    | false => exact iff_of_true rfl ⟨hlt, fun _ => rfl⟩
    | true => exact iff_of_false nofun fun h => nomatch h.2 rfl

end PrefillReport

/-- Begins turn `id`: makes the set of tokens that end a reply if it is not there yet, then
puts the prompt into the cache. -/
def Loaded.prefill {E : Engine} (l : Loaded E) (rejectLongPrompts : Bool) (id : Nat)
    (prompt : String) (parseControl : Bool) (maxNewTokens : Nat) (w : E.World) :
    Except SessionError PrefillReport × Loaded E × E.World :=
  let l := { l with turn := none }
  match l.stop.prepare (fun text => E.tokenize l.context text false true) w with
  | (.error e, w) => (.error e, l, w)
  | (.ok stop, w) =>
    let l := { l with stop }
    match E.tokenize l.context prompt true parseControl w with
    | (.error e, w) => (.error e, l, w)
    | (.ok tokens, w) =>
      let report := PrefillReport.ofCounts id tokens.length maxNewTokens
        (E.contextSize l.context).toNat
      if tokens.isEmpty then (.error (.tokenization "prompt produced no tokens"), l, w)
      else
        match report.refusal? rejectLongPrompts with
        | some e => (.error e, l, w)
        | none =>
          match E.submitPrompt tokens l.batch l.context w with
          | (.error e, batch, context, w) => (.error e, { l with batch, context }, w)
          | (.ok (), batch, context, w) =>
            (.ok report,
              { l with batch, context, turn := some (.start id tokens.length maxNewTokens) }, w)

/-- Begins a turn.  A turn that could not begin leaves its number to the next. -/
def Session.prefill {E : Engine} (s : Session E) (prompt : String) (parseControl : Bool)
    (maxNewTokens : Nat) : Except SessionError PrefillReport × Session E :=
  match s.phase with
  | .loaded l =>
    match l.prefill s.options.rejectLongPrompts s.nextTurnId prompt parseControl maxNewTokens
        s.world with
    | (.error e, l, world) => (.error e, { s with world, phase := .loaded l })
    | (.ok report, l, world) =>
      (.ok report, { s with world, phase := .loaded l, nextTurnId := s.nextTurnId + 1 })
  | _ => (.error (s.refusal "prefill"), s)

end LlmSession
