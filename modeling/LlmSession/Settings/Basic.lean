import LlmSession.Worker

/-!
# Settings

Everything about a session that a user may set, with a default for each part.  Settings come
from files and command lines, so they may hold anything; `SessionSettings.validate` repairs
what no session could work with, and leaves the rest as it is.

## Main definitions

* `SessionSettings`, `SessionSettings.validate`: the settings and their repair.
* `SessionSettings.sessionOptions`, `SessionSettings.turnDefaults`: what a session and its
  worker are made with.
-/

namespace LlmSession

/-- What a user may set about a session. -/
structure SessionSettings where
  /-- The threads to use, or none to go by the number of cores. -/
  threads : Option UInt32 := none
  /-- The places in the cache. -/
  contextSize : UInt32 := defaultContextSize
  /-- The most tokens of one forward pass. -/
  batchCapacity : UInt32 := 512
  /-- The number of sequences that are kept apart. -/
  maxSequences : UInt32 := 1
  /-- The number of layers that are offloaded. -/
  gpuLayers : UInt32 := 0
  /-- The greatest number of new tokens of a turn. -/
  maxNewTokens : UInt64 := 512
  /-- What the length of a turn counts. -/
  lengthLimit : LengthLimit := .generated
  /-- Whether control text in prompts is read as control tokens. -/
  parseSpecial : Bool := true
  /-- Whether a turn is refused that may not fit into the cache. -/
  rejectLongPrompts : Bool := false
  /-- Whether the cache is emptied before each streamed turn. -/
  clearCacheBetweenTurns : Bool := true
  /-- The texts whose tokens end a reply. -/
  stopStrings : List String := defaultStopStrings
  /-- The texts that end a reply where they occur. -/
  stopMarkers : List String := defaultMarkers
  /-- What conversations begin with. -/
  systemPrompt : String := "You are a helpful AI assistant."
  /-- How tokens are drawn. -/
  sampler : SamplerConfig := {}
  deriving DecidableEq, Repr

/-- A sampler's settings with the temperature and the two shares in their ranges, and with no
number of recent tokens below the one that asks for all of them. -/
def SamplerConfig.validate (c : SamplerConfig) : SamplerConfig :=
  { c with
    temperature := Binary32.clamp .zero .two c.temperature
    topP := Binary32.clamp .zero .one c.topP
    minP := Binary32.clamp .zero .one c.minP
    penaltyLastN := if c.penaltyLastN < -1 then -1 else c.penaltyLastN }

/-- Whether two samplers have the same settings as numbers. -/
def SamplerConfig.sameNumbers (a b : SamplerConfig) : Bool :=
  a.temperature.sameNumber b.temperature && a.topP.sameNumber b.topP &&
    a.minP.sameNumber b.minP && a.penaltyLastN == b.penaltyLastN &&
    a.repeatPenalty.sameNumber b.repeatPenalty &&
    a.frequencyPenalty.sameNumber b.frequencyPenalty &&
    a.presencePenalty.sameNumber b.presencePenalty && a.seed == b.seed

/-- The texts that are not empty. -/
def nonEmpty (texts : List String) : List String := texts.filter (· ≠ "")

/-- The given value, or another one in the place of zero. -/
def orIfZero {α : Type} [DecidableEq α] [OfNat α 0] (n other : α) : α := if n = 0 then other else n

/-- The markers that are not empty, or the usual ones if there are none. -/
def validMarkers (markers : List String) : List String :=
  if nonEmpty markers = [] then defaultMarkers else nonEmpty markers

namespace SessionSettings

/-- The settings with everything repaired that no session could work with. -/
def validate (s : SessionSettings) : SessionSettings :=
  { s with
    threads := s.threads.filter (· ≠ 0)
    contextSize := max s.contextSize minContextSize
    batchCapacity := orIfZero s.batchCapacity 512
    maxSequences := orIfZero s.maxSequences 1
    maxNewTokens := orIfZero s.maxNewTokens 512
    stopMarkers := validMarkers s.stopMarkers
    stopStrings := nonEmpty s.stopStrings
    sampler := s.sampler.validate }

/-- What a session is made with. -/
def sessionOptions (s : SessionSettings) : SessionOptions where
  context := {
    threads := s.threads
    contextSize := s.contextSize
    batchCapacity := s.batchCapacity
    maxSequences := s.maxSequences }
  gpuLayers := s.gpuLayers
  sampler := s.sampler
  stopStrings := s.stopStrings
  stopMarkers := s.stopMarkers
  lengthLimit := s.lengthLimit
  rejectLongPrompts := s.rejectLongPrompts

/-- What a worker assumes about a turn. -/
def turnDefaults (s : SessionSettings) : TurnDefaults where
  maxNewTokens := s.maxNewTokens.toNat
  parseSpecial := s.parseSpecial
  clearCacheBetweenTurns := s.clearCacheBetweenTurns

/-- Whether two settings are the same, with numbers compared as numbers. -/
def sameValues (a b : SessionSettings) : Bool :=
  decide ({ a with sampler := b.sampler } = b) && a.sampler.sameNumbers b.sampler

end SessionSettings
end LlmSession
