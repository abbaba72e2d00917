import LlmSession.Engine.Basic

/-!
# Observing an engine

`Engine.recorded` turns any engine into one that behaves the same and keeps a transcript of
the calls that it gets, with what the observer may want to know of each: what was asked, and
whether it went well.  The session is the same for both, so a fact about the transcript is a
fact about what the session does to its engine.

Calls that only read are not kept: the bytes of a token, the size of a context and the
summary of a model leave no trace.

## Main definitions

* `EngineCall`: one call that was made.
* `EngineCall.line`: one line of text for it.
* `Engine.recorded`: the engine under observation.
-/

namespace LlmSession

/-- A call that an engine got. -/
inductive EngineCall where
  /-- A model was to be loaded. -/
  | loadModel (path : String) (gpuLayers : UInt32) (succeeded : Bool)
  /-- A context was to be created. -/
  | newContext (config : ContextConfig) (succeeded : Bool)
  /-- A sampler was created. -/
  | newSampler (config : SamplerConfig)
  /-- A text was to be turned into tokens; the answer is none if that failed. -/
  | tokenize (text : String) (addSpecial parseControl : Bool) (answer : Option (List Token))
  /-- A forward pass was to be made over these slots. -/
  | decode (slots : List BatchSlot) (succeeded : Bool)
  /-- A token was drawn. -/
  | sample (token : Token)
  /-- The cache was emptied. -/
  | clearMemory (full : Bool)
  deriving DecidableEq, Repr

/-! ## One line of text for a call -/

/-- A truth value in a line. -/
def boolWord (b : Bool) : String := if b then "true" else "false"

/-- The words of a line, one space apart. -/
def words (parts : List String) : String := " ".intercalate parts

namespace BatchSlot

/-- A slot in a line: token and position, the sequences unless they are the first alone, and
a star if a distribution is asked for. -/
def word (s : BatchSlot) : String :=
  toString s.token.id.toInt ++ "@" ++ toString s.pos.toInt ++
    (if s.seqIds = [0] then ""
      else ":" ++ "+".intercalate (s.seqIds.map fun q => toString q.toInt)) ++
    (if s.logits then "*" else "")

end BatchSlot

/-- The slots in a line.  Of more than sixteen only the first and the last four are shown. -/
def slotWords (slots : List BatchSlot) : String :=
  if slots.length ≤ 16 then words (slots.map BatchSlot.word)
  else words ((slots.take 4).map BatchSlot.word ++ [".."] ++
    (slots.drop (slots.length - 4)).map BatchSlot.word)

/-- A text in a line: its length in bytes and its first twenty-four characters. -/
def textWords (text : String) : List String :=
  ["bytes=" ++ toString text.utf8ByteSize, String.ofList (text.toList.take 24)]

/-- A single-precision number in a line: its bit pattern as a natural number. -/
def binary32Word (x : Binary32) : String := toString x.bits.toNat

/-- The line for a call. -/
def EngineCall.line : EngineCall → String
  | .loadModel path gpuLayers _ => words ["load_model", path, "gpu=" ++ toString gpuLayers]
  | .newContext c _ => words ["new_context",
      "threads=" ++ (match c.threads with
        | some n => toString (max n 1)
        | none => "auto"),
      "size=" ++ toString c.contextSize, "resolved=" ++ toString c.resolvedContextSize,
      "batch=" ++ toString c.batchCapacity, "seqs=" ++ toString c.maxSequences]
  | .newSampler c => words ["new_sampler", binary32Word c.temperature, binary32Word c.topP,
      binary32Word c.minP, toString c.penaltyLastN.toInt, binary32Word c.repeatPenalty,
      binary32Word c.frequencyPenalty, binary32Word c.presencePenalty, toString c.seed]
  | .tokenize text addSpecial parseControl _ => words (["tokenize",
      "special=" ++ boolWord addSpecial, "control=" ++ boolWord parseControl] ++ textWords text)
  | .decode slots _ => words ["decode", "n=" ++ toString slots.length,
      "tok=" ++ toString (slots.foldl (fun n s => n + s.token.id.toInt) 0),
      "pos=" ++ toString (slots.foldl (fun n s => n + s.pos.toInt) 0),
      "logits=" ++ toString (slots.countP (·.logits)), "[" ++ slotWords slots ++ "]"]
  | .sample token => words ["sample", toString token.id.toInt]
  | .clearMemory full => words ["clear_memory", "full=" ++ boolWord full]

/-! ## The engine under observation -/

/-- Whether an outcome is a success. -/
def succeeded {α : Type} (outcome : Except SessionError α) : Bool :=
  match outcome with
  | .ok _ => true
  | .error _ => false

/-- The same engine, with the calls that it got beside its world, oldest first. -/
def Engine.recorded (E : Engine) : Engine where
  World := E.World × Array EngineCall
  Model := E.Model
  Context := E.Context
  Sampler := E.Sampler
  loadModel path gpuLayers w :=
    let (outcome, world) := E.loadModel path gpuLayers w.1
    (outcome, world, w.2.push (.loadModel path gpuLayers (succeeded outcome)))
  newContext model config w :=
    let (outcome, world) := E.newContext model config w.1
    (outcome, world, w.2.push (.newContext config (succeeded outcome)))
  newSampler config w :=
    let (sampler, world) := E.newSampler config w.1
    (sampler, world, w.2.push (.newSampler config))
  tokenize context text addSpecial parseControl w :=
    let (outcome, world) := E.tokenize context text addSpecial parseControl w.1
    (outcome, world, w.2.push (.tokenize text addSpecial parseControl outcome.toOption))
  decode batch context w :=
    let (outcome, context, world) := E.decode batch context w.1
    (outcome, context, world, w.2.push (.decode batch.filled (succeeded outcome)))
  sample sampler context w :=
    let (token, sampler, world) := E.sample sampler context w.1
    (token, sampler, world, w.2.push (.sample token))
  clearMemory full context w :=
    let (context, world) := E.clearMemory full context w.1
    (context, world, w.2.push (.clearMemory full))
  detokenize := E.detokenize
  isEndOfGeneration := E.isEndOfGeneration
  contextSize := E.contextSize
  describe := E.describe
  name := E.name
  systemInfo := E.systemInfo
  clock w := E.clock w.1

end LlmSession
