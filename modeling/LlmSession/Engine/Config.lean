import LlmSession.Binary32

/-!
# What an engine is configured with, and what it tells about a model

The values that cross the boundary between a session and its engine: how a context is to be
created, how tokens are to be sampled, and what is known of a loaded model.

Two requests are not taken as they are.  A context never gets less than `minContextSize`
places, and never fewer than one thread; `resolvedContextSize` and `resolvedThreads` say
what is really asked of the engine.
-/

namespace LlmSession

/-! ## Contexts -/

/-- The fewest places that a context is created with. -/
def minContextSize : UInt32 := 512

/-- The number of places when nothing else is asked for. -/
def defaultContextSize : UInt32 := 1024

/-- The most threads that are used unasked. -/
def maxDecodeThreads : UInt32 := 8

/-- The threads used on a machine with the given number of cores: two cores are left alone,
and the rest counts up to `maxDecodeThreads`, but never as none. -/
def threadsForCores (cores : UInt32) : UInt32 :=
  if cores ≤ 2 then 1 else min (cores - 2) maxDecodeThreads

/-- How a context is to be created. -/
structure ContextConfig where
  /-- The threads to use, or none to go by the number of cores. -/
  threads : Option UInt32 := none
  /-- The places in the cache, one for each token. -/
  contextSize : UInt32 := defaultContextSize
  /-- The most tokens of one forward pass. -/
  batchCapacity : UInt32 := 512
  /-- The number of sequences that the context keeps apart. -/
  maxSequences : UInt32 := 1
  deriving DecidableEq, Repr

namespace ContextConfig

/-- The threads that the engine is asked for, on a machine with the given cores. -/
def resolvedThreads (c : ContextConfig) (cores : UInt32) : UInt32 :=
  match c.threads with
  | some n => max n 1
  | none => threadsForCores cores

/-- The places that the engine is asked for. -/
def resolvedContextSize (c : ContextConfig) : UInt32 := max c.contextSize minContextSize

end ContextConfig

/-! ## Samplers -/

/-- The seed that asks for a random one. -/
def randomSeed : UInt32 := 0xFFFFFFFF

/-- How tokens are to be drawn: temperature first, then the two cuts of the distribution,
then the penalties on what was drawn lately. -/
structure SamplerConfig where
  /-- The temperature. -/
  temperature : Binary32 := .ofDecimal 8 1
  /-- The share of the distribution that is kept. -/
  topP : Binary32 := .ofDecimal 9 1
  /-- The least probability, relative to the most likely token. -/
  minP : Binary32 := .ofDecimal 5 2
  /-- How many recent tokens the penalties look at. -/
  penaltyLastN : Int32 := 32
  /-- The factor against repetition. -/
  repeatPenalty : Binary32 := .ofDecimal 11 1
  /-- The penalty for each earlier occurrence. -/
  frequencyPenalty : Binary32 := .one
  /-- The penalty for having occurred. -/
  presencePenalty : Binary32 := .one
  /-- The seed of the draw. -/
  seed : UInt32 := randomSeed
  deriving DecidableEq, Repr

/-! ## Models -/

/-- What is known of a loaded model. -/
structure ModelSummary where
  /-- The path that it was loaded from. -/
  path : String
  /-- A short description. -/
  description : String
  /-- The number of tokens in the vocabulary. -/
  vocabSize : Int32
  /-- The width of an embedding. -/
  embeddingDim : Int32
  /-- The context length of the training. -/
  contextLength : UInt32
  /-- The number of parameters. -/
  paramCount : UInt64
  /-- The size in bytes. -/
  sizeBytes : UInt64
  deriving DecidableEq, Repr

end LlmSession
