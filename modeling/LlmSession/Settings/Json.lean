import LlmSession.Decimal.Shortest
import LlmSession.Json.Reader
import LlmSession.Json.Record
import LlmSession.Json.Writer
import LlmSession.Settings.Basic

/-!
# Settings and messages as JSON

The spelling of settings and of messages in files.  Settings may leave out any field, which
then has its default; a message has both of its fields.

## Main definitions

* `SessionSettings.ofJson?`, `SessionSettings.toJson`.
* `Message.ofJson?`, `Message.toJson`.
-/

namespace LlmSession

/-! ## Choices -/

/-- The name of a length limit in files. -/
def LengthLimit.name : LengthLimit → String
  | .generated => "generated"
  | .absolute => "absolute"

/-- The length limit of a name. -/
def LengthLimit.ofName? (name : String) : Option LengthLimit :=
  if name = "generated" then some .generated
  else if name = "absolute" then some .absolute
  else none

/-- The role of a name. -/
def Role.ofTag? (tag : String) : Option Role :=
  if tag = "system" then some .system
  else if tag = "user" then some .user
  else if tag = "assistant" then some .assistant
  else none

@[simp] theorem LengthLimit.ofName?_name (l : LengthLimit) : ofName? l.name = some l := by
  cases l <;> decide

@[simp] theorem Role.ofTag?_tag (r : Role) : ofTag? r.tag = some r := by
  cases r <;> decide

/-- A single-precision number in a file; one that is not finite has no spelling. -/
def Json.ofBinary32 (x : Binary32) : Json :=
  if x.isFinite then .number (.ofBinary32 x) else .null

/-! ## Samplers -/

namespace SamplerConfig

/-- The names of the fields. -/
def fieldNames : List String :=
  ["temperature", "top_p", "min_p", "penalty_last_n", "repeat_penalty", "frequency_penalty",
   "presence_penalty", "seed"]

/-- The settings of a sampler that some fields spell. -/
def ofFields? (f : Json.Fields) : Option SamplerConfig := do
  let d : SamplerConfig := {}
  let temperature ← f.get? "temperature" Json.toBinary32? d.temperature
  let topP ← f.get? "top_p" Json.toBinary32? d.topP
  let minP ← f.get? "min_p" Json.toBinary32? d.minP
  let penaltyLastN ← f.get? "penalty_last_n" Json.toInt32? d.penaltyLastN
  let repeatPenalty ← f.get? "repeat_penalty" Json.toBinary32? d.repeatPenalty
  let frequencyPenalty ← f.get? "frequency_penalty" Json.toBinary32? d.frequencyPenalty
  let presencePenalty ← f.get? "presence_penalty" Json.toBinary32? d.presencePenalty
  let seed ← f.get? "seed" Json.toUInt32? d.seed
  return {
    temperature, topP, minP, penaltyLastN, repeatPenalty, frequencyPenalty, presencePenalty
    seed }

/-- The settings of a sampler that a value spells. -/
def ofJson? (v : Json) : Option SamplerConfig := (v.fields? fieldNames).bind ofFields?

/-- The settings of a sampler as a value. -/
def toJson (c : SamplerConfig) : Json :=
  .ofFields [
    ("temperature", .ofBinary32 c.temperature),
    ("top_p", .ofBinary32 c.topP),
    ("min_p", .ofBinary32 c.minP),
    ("penalty_last_n", .ofInt c.penaltyLastN.toInt),
    ("repeat_penalty", .ofBinary32 c.repeatPenalty),
    ("frequency_penalty", .ofBinary32 c.frequencyPenalty),
    ("presence_penalty", .ofBinary32 c.presencePenalty),
    ("seed", .ofNat c.seed.toNat)]

end SamplerConfig

/-! ## Settings -/

namespace SessionSettings

/-- The names of the fields. -/
def fieldNames : List String :=
  ["threads", "context_size", "batch_capacity", "max_sequences", "gpu_layers", "max_new_tokens",
   "length_limit", "parse_special", "reject_long_prompts", "clear_cache_between_turns",
   "stop_strings", "stop_markers", "system_prompt", "sampler"]

/-- The settings that some fields spell. -/
def ofFields? (f : Json.Fields) : Option SessionSettings := do
  let d : SessionSettings := {}
  let threads ← f.get? "threads" (Json.orNull? Json.toUInt32?) d.threads
  let contextSize ← f.get? "context_size" Json.toUInt32? d.contextSize
  let batchCapacity ← f.get? "batch_capacity" Json.toUInt32? d.batchCapacity
  let maxSequences ← f.get? "max_sequences" Json.toUInt32? d.maxSequences
  let gpuLayers ← f.get? "gpu_layers" Json.toUInt32? d.gpuLayers
  let maxNewTokens ← f.get? "max_new_tokens" Json.toUInt64? d.maxNewTokens
  let lengthLimit ← f.get? "length_limit" (Json.choice? LengthLimit.ofName?) d.lengthLimit
  let parseSpecial ← f.get? "parse_special" Json.toBool? d.parseSpecial
  let rejectLongPrompts ← f.get? "reject_long_prompts" Json.toBool? d.rejectLongPrompts
  let clearCacheBetweenTurns ←
    f.get? "clear_cache_between_turns" Json.toBool? d.clearCacheBetweenTurns
  let stopStrings ← f.get? "stop_strings" (Json.toList? Json.toString?) d.stopStrings
  let stopMarkers ← f.get? "stop_markers" (Json.toList? Json.toString?) d.stopMarkers
  let systemPrompt ← f.get? "system_prompt" Json.toString? d.systemPrompt
  let sampler ← f.get? "sampler" SamplerConfig.ofJson? d.sampler
  return {
    threads, contextSize, batchCapacity, maxSequences, gpuLayers, maxNewTokens, lengthLimit
    parseSpecial, rejectLongPrompts, clearCacheBetweenTurns, stopStrings, stopMarkers
    systemPrompt, sampler }

/-- The settings that a value spells. -/
def ofJson? (v : Json) : Option SessionSettings := (v.fields? fieldNames).bind ofFields?

/-- The settings as a value. -/
def toJson (s : SessionSettings) : Json :=
  .ofFields [
    ("threads", match s.threads with
      | some n => .ofNat n.toNat
      | none => .null),
    ("context_size", .ofNat s.contextSize.toNat),
    ("batch_capacity", .ofNat s.batchCapacity.toNat),
    ("max_sequences", .ofNat s.maxSequences.toNat),
    ("gpu_layers", .ofNat s.gpuLayers.toNat),
    ("max_new_tokens", .ofNat s.maxNewTokens.toNat),
    ("length_limit", .ofString s.lengthLimit.name),
    ("parse_special", .bool s.parseSpecial),
    ("reject_long_prompts", .bool s.rejectLongPrompts),
    ("clear_cache_between_turns", .bool s.clearCacheBetweenTurns),
    ("stop_strings", .array (s.stopStrings.map .ofString)),
    ("stop_markers", .array (s.stopMarkers.map .ofString)),
    ("system_prompt", .ofString s.systemPrompt),
    ("sampler", s.sampler.toJson)]

end SessionSettings

/-! ## Messages -/

namespace Message

/-- The names of the fields. -/
def fieldNames : List String := ["role", "content"]

/-- The message that a value spells. -/
def ofJson? (v : Json) : Option Message := do
  let f ← v.fields? fieldNames
  let role ← f.require? "role" (Json.choice? Role.ofTag?)
  let content ← f.require? "content" Json.toString?
  return { role, content }

/-- The message as a value. -/
def toJson (m : Message) : Json :=
  .ofFields [("role", .ofString m.role.tag), ("content", .ofString m.content)]

end Message
end LlmSession
