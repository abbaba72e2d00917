/-!
# Why an operation is refused

One cause per constructor, with what the caller may need to know about it, and one function
that gives the wording.  Statements elsewhere speak of the causes; the texts are here only.

One of the causes is not like the others.  Where a sum is no word, the operation is not refused
but given up in the middle, and the program with it if nobody catches that.  It is among the
causes so that what an operation leaves behind can be said of this case as well.
-/

namespace LlmSession

/-- Why an operation on a batch, a session or a worker fails. -/
inductive SessionError where
  /-- Memory for the named thing could not be reserved. -/
  | allocationFailed (what : String)
  /-- The model could not be loaded. -/
  | loadFailed (detail : String)
  /-- The engine could not create a context. -/
  | contextCreateFailed (detail : String)
  /-- Every one of the batch's slots is taken, or the slot asked for is not. -/
  | capacityExceeded (capacity : Nat)
  /-- One slot was to belong to more sequences than the batch allows. -/
  | tooManySequences (max got : Nat)
  /-- The engine's forward pass failed. -/
  | decodeFailed (detail : String)
  /-- The turn needs more places in the cache than the context has. -/
  | promptTooLong (required available : Nat)
  /-- The operation makes no sense in the present state. -/
  | invalidState (operation state : String)
  /-- The engine could not turn a text into tokens. -/
  | tokenization (detail : String)
  /-- The engine could not turn a token into bytes. -/
  | detokenization (detail : String)
  /-- The model's file is not one that can be loaded. -/
  | modelValidation (detail : String)
  /-- The worker that owns the session failed. -/
  | worker (detail : String)
  /-- A sum is no word of 64 bits, and the operation was given up where it was formed. -/
  | overflow
  deriving DecidableEq, Repr

/-- The wording of each cause. -/
def SessionError.message : SessionError → String
  | .allocationFailed what => "Failed to allocate " ++ what
  | .loadFailed detail => "Failed to load model: " ++ detail
  | .contextCreateFailed detail => "Failed to create context: " ++ detail
  | .capacityExceeded capacity =>
    "Batch capacity exceeded (" ++ toString capacity ++ " slots)"
  | .tooManySequences max got =>
    "Too many sequence ids for one slot (max " ++ toString max ++ ", got " ++
      toString got ++ ")"
  | .decodeFailed detail => "Decode failed: " ++ detail
  | .promptTooLong required available =>
    "Prompt too long: " ++ toString required ++ " tokens required, context holds " ++
      toString available
  | .invalidState operation state =>
    "Invalid state: cannot " ++ operation ++ " while " ++ state
  | .tokenization detail => "Tokenization failed: " ++ detail
  | .detokenization detail => "Detokenization failed: " ++ detail
  | .modelValidation detail => "Model validation failed: " ++ detail
  | .worker detail => "Worker thread error: " ++ detail
  | .overflow => "attempt to add with overflow"

instance : ToString SessionError where
  toString := SessionError.message

end LlmSession
