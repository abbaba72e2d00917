import LlmSession.Batch
import LlmSession.Engine.Config
import LlmSession.Text.Search

/-!
# The engine, seen from a session

All that a session needs from an inference engine, as one structure: the types of its
handles and the operations on them.  Nothing is assumed of an engine.  It may fail at any
call, sample any token, and give any bytes for it; what a session guarantees, it guarantees
for every engine.

Operations that may change the engine itself take its `World` and return the new one.  A
context and a sampler are values that an operation returns changed; giving one up is no
longer holding it.

## Implementation notes

The types are fields, not parameters, so that a session is a type over one thing: its
engine.  The last operations take no `World`, since they only read.
-/

namespace LlmSession

/-- An inference engine: its handles and the operations on them. -/
structure Engine where
  /-- What the engine itself remembers between calls. -/
  World : Type
  /-- A loaded model. -/
  Model : Type
  /-- A context of a model: its cache and the distribution of the last pass. -/
  Context : Type
  /-- A sampler with the state of its draws. -/
  Sampler : Type
  /-- Loads the model at a path, with some layers offloaded. -/
  loadModel : String → UInt32 → World → Except SessionError Model × World
  /-- Creates a context of a model. -/
  newContext : Model → ContextConfig → World → Except SessionError Context × World
  /-- Creates a sampler. -/
  newSampler : SamplerConfig → World → Sampler × World
  /-- The tokens of a text; the flags ask for the tokens that open a prompt, and for control
  text to be read as control tokens. -/
  tokenize : Context → String → Bool → Bool → World →
    Except SessionError (List Token) × World
  /-- One forward pass over the filled slots of a batch. -/
  decode : TokenBatch → Context → World → Except SessionError Unit × Context × World
  /-- Draws a token from the distribution of the last pass. -/
  sample : Sampler → Context → World → Token × Sampler × World
  /-- Empties the cache; the flag asks for its buffers to be dropped as well. -/
  clearMemory : Bool → Context → World → Context × World
  /-- The bytes of a token, which may end inside a character. -/
  detokenize : Context → Token → Except SessionError (List UInt8)
  /-- Whether a token says that the reply is over. -/
  isEndOfGeneration : Context → Token → Bool
  /-- The places of the cache. -/
  contextSize : Context → UInt32
  /-- What is known of a model. -/
  describe : Model → ModelSummary
  /-- The name of the engine in reports. -/
  name : String
  /-- What the engine tells about its build and the hardware. -/
  systemInfo : String
  /-- The engine's clock, in nanoseconds. -/
  clock : World → Nat

/-- Whether control text in a prompt is read as control tokens although the caller asked for
it to stay literal.  An engine that cannot leave it literal does so for every prompt in
which control text may begin. -/
def controlTextForced (text : String) (parseControl : Bool) : Bool :=
  !parseControl && occursIn ['<', '|'] text.toList

end LlmSession
