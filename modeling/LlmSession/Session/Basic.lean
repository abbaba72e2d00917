import LlmSession.Engine.Submit
import LlmSession.Turn

/-!
# Sessions

A session owns what one loaded model needs and runs one turn at a time on it.  It is in one
of three phases.  While *idle* it holds nothing.  While *loaded* it holds all of it.  It is
*faulted* after the old context was given up for a new one that could not be created; only
unloading leads out of that.

A turn needs a context, so it is part of what a loaded session holds: without a model there
is no turn, and a new context begins without one.

Every operation is a function from the session before to its answer and the session after.
An operation that makes no sense in the present phase changes nothing.

## Main definitions

* `SessionOptions`: what a session is made with.
* `Loaded`, `Phase`, `Session`: the state.
* `Session.load`, `Session.reload`, `Session.clearCache`, `Session.unload`: the operations
  that need no turn.
-/

namespace LlmSession

/-- What a session is made with. -/
structure SessionOptions where
  /-- How its first context is to be created. -/
  context : ContextConfig := {}
  /-- The number of layers that are offloaded. -/
  gpuLayers : UInt32 := 0
  /-- How tokens are drawn. -/
  sampler : SamplerConfig := {}
  /-- The texts whose tokens end a reply. -/
  stopStrings : List String := defaultStopStrings
  /-- The texts that end a reply where they occur. -/
  stopMarkers : List String := defaultMarkers
  /-- What the length of a turn counts. -/
  lengthLimit : LengthLimit := .generated
  /-- Whether a turn is refused that may not fit into the cache. -/
  rejectLongPrompts : Bool := false
  deriving DecidableEq, Repr

/-- The stop conditions of a new context. -/
def SessionOptions.stopConditions (o : SessionOptions) : StopConditions :=
  .ofLists o.stopStrings o.stopMarkers

/-- What a loaded session holds. -/
structure Loaded (E : Engine) where
  /-- The model. -/
  model : E.Model
  /-- What is known of the model. -/
  summary : ModelSummary
  /-- How the context was created. -/
  config : ContextConfig
  /-- The context. -/
  context : E.Context
  /-- The sampler. -/
  sampler : E.Sampler
  /-- The batch in which tokens are staged. -/
  batch : TokenBatch
  /-- What ends a reply early. -/
  stop : StopConditions
  /-- The turn, if one was begun on this context. -/
  turn : Option Turn := none

/-- The phase of a session. -/
inductive Phase (E : Engine) where
  /-- There is no model. -/
  | idle
  /-- There is a model with all that it needs. -/
  | loaded (l : Loaded E)
  /-- There is a model whose context could not be created anew. -/
  | faulted (model : E.Model) (reason : String)

/-- The phase in an error. -/
def Phase.describe {E : Engine} : Phase E → String
  | .idle => "idle"
  | .loaded _ => "loaded"
  | .faulted _ reason => "faulted (" ++ reason ++ ")"

/-- The phase by its name. -/
def Phase.name {E : Engine} : Phase E → String
  | .idle => "idle"
  | .loaded _ => "loaded"
  | .faulted _ _ => "faulted"

/-- A session with one engine. -/
structure Session (E : Engine) where
  /-- What the session was made with. -/
  options : SessionOptions
  /-- What the engine remembers. -/
  world : E.World
  /-- The phase. -/
  phase : Phase E := .idle
  /-- The number of the next turn.  Turns are counted without a bound, as they can be in a word of
  64 bits for as long as it has numbers. -/
  nextTurnId : Nat := 1

namespace Session

variable {E : Engine}

/-! ## What a session shows -/

/-- What a loaded session holds. -/
def loaded? (s : Session E) : Option (Loaded E) :=
  match s.phase with
  | .loaded l => some l
  | _ => none

/-- The turn that was begun last, over or not. -/
def turn? (s : Session E) : Option Turn := s.loaded?.bind Loaded.turn

/-- The number of that turn. -/
def turnId? (s : Session E) : Option Nat := s.turn?.map Turn.id

/-- The next position that the turn writes. -/
def cursor? (s : Session E) : Option Nat := s.turn?.map Turn.cursor

/-- What is known of the model. -/
def summary? (s : Session E) : Option ModelSummary := s.loaded?.map Loaded.summary

/-- The places of the context's cache. -/
def contextSize? (s : Session E) : Option UInt32 :=
  s.loaded?.map fun l => E.contextSize l.context

/-- How many steps the turn may still take at most until it gives its reason. -/
def stepsLeft (s : Session E) : Nat :=
  match s.turn? with
  | none => 0
  | some t => t.stepsLeft (s.options.lengthLimit.ceiling t.promptTokens t.maxNewTokens)

/-- The answer to an operation that makes no sense in the present phase. -/
def refusal (s : Session E) (operation : String) : SessionError :=
  .invalidState operation s.phase.describe

/-! ## Loading and unloading -/

/-- All that a session holds for the model at a path: first the model, then the context, the
batch and the sampler. -/
def allocate (options : SessionOptions) (path : String) (w : E.World) :
    Except SessionError (Loaded E) × E.World :=
  match E.loadModel path options.gpuLayers w with
  | (.error e, w) => (.error e, w)
  | (.ok model, w) =>
    match E.newContext model options.context w with
    | (.error e, w) => (.error e, w)
    | (.ok context, w) =>
      match TokenBatch.allocate options.context.batchCapacity.toNat 0
          options.context.maxSequences.toNat with
      | .error e => (.error e, w)
      | .ok batch =>
        let (sampler, w) := E.newSampler options.sampler w
        (.ok {
          model, context, sampler, batch
          summary := E.describe model
          config := options.context
          stop := options.stopConditions }, w)

/-- Loads a model into an idle session.  If any part cannot be had, the session stays idle. -/
def load (s : Session E) (path : String) : Except SessionError ModelSummary × Session E :=
  match s.phase with
  | .idle =>
    match allocate s.options path s.world with
    | (.error e, world) => (.error e, { s with world })
    | (.ok l, world) => (.ok l.summary, { s with world, phase := .loaded l })
  | _ => (.error (s.refusal "load"), s)

/-- Gives up everything. -/
def unload (s : Session E) : Session E := { s with phase := .idle }

/-! ## A new context -/

/-- A configuration with those fields replaced that are given. -/
def reconfigure (config : ContextConfig) (threads contextSize : Option UInt32) : ContextConfig :=
  { config with
    threads := threads <|> config.threads
    contextSize := contextSize.getD config.contextSize }

/-- Replaces the context by one with other settings.  The old one is given up first, and with
it the turn and the set of tokens that end a reply; without a new one the session is
faulted. -/
def reload (s : Session E) (threads contextSize : Option UInt32) :
    Except SessionError Unit × Session E :=
  match s.phase with
  | .loaded l =>
    let config := reconfigure l.config threads contextSize
    match E.newContext l.model config s.world with
    | (.ok context, world) =>
      (.ok (), { s with
        world
        phase := .loaded { l with
          config, context, turn := none, stop := s.options.stopConditions } })
    | (.error e, world) => (.error e, { s with world, phase := .faulted l.model e.message })
  | _ => (.error (s.refusal "reload the context"), s)

/-! ## Emptying the cache -/

/-- Empties the cache.  A turn that is not over ends with that. -/
def clearCache (s : Session E) (full : Bool) : Except SessionError Unit × Session E :=
  match s.phase with
  | .loaded l =>
    let (context, world) := E.clearMemory full l.context s.world
    (.ok (), { s with
      world, phase := .loaded { l with context, turn := l.turn.map Turn.interrupt } })
  | _ => (.error (s.refusal "clear the cache"), s)

end Session
end LlmSession
