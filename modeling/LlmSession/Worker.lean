import LlmSession.Bench.Run
import LlmSession.Conversation
import LlmSession.Session.Decode

/-!
# The worker and the streams of its turns

A worker owns a session and does one thing at a time with it.  On top of the session it has
the defaults for turns, and two ways to a reply: a prompt that is streamed as it is, and a
message that is sent in a conversation.

A stream is a value that knows the number of its turn and what it has given so far.  It asks
for one step after the other and passes over the steps that release no text.  When another
turn has begun, its next step is refused, and with that it is over.

A reply belongs to a conversation only when it is complete: `Worker.send` adds the user's
message once the turn has begun, and `Worker.finishInto` adds the reply once the stream has
come to its end without an error.

An operation that is given up in the middle, because a sum is no word, is answered by its error here,
and the worker goes on with the session as the operation left it.  A worker on a thread of its own
does not: the thread ends with the operation, and every later request fails.  So nothing in what
follows says what such a worker answers after `SessionError.overflow`.

## Main definitions

* `Worker`, `TurnStream`: the state.
* `Worker.streamTurn`, `Worker.send`: ways to a stream.
* `TurnStream.next`, `TurnStream.drain`: the text of a stream, piece by piece or all of it.
* `Worker.collectText`, `Worker.finishInto`: the end of a stream.
-/

namespace LlmSession

/-- What a worker assumes about a turn where it is not told. -/
structure TurnDefaults where
  /-- The greatest number of new tokens. -/
  maxNewTokens : Nat := 512
  /-- Whether control text in prompts is read as control tokens. -/
  parseSpecial : Bool := true
  /-- Whether the cache is emptied before each streamed turn. -/
  clearCacheBetweenTurns : Bool := true
  deriving DecidableEq, Repr

/-- A session with the defaults for its turns. -/
structure Worker (E : Engine) where
  /-- The session. -/
  session : Session E
  /-- The defaults. -/
  defaults : TurnDefaults

/-- The text of one turn as it comes. -/
structure TurnStream where
  /-- The report on the beginning of the turn. -/
  report : PrefillReport
  /-- The text given so far. -/
  text : String := ""
  /-- Why the turn is over, once that is known. -/
  stopReason : Option StopReason := none
  /-- Whether the stream is over. -/
  done : Bool := false
  deriving DecidableEq, Repr

namespace TurnStream

variable {E : Engine}

/-- The next piece of text, an error, or nothing once the stream is over. -/
def next (t : TurnStream) (s : Session E) :
    Option (Except SessionError String) × TurnStream × Session E :=
  if t.done then (none, t, s)
  else
    match _hstep : s.decodeStepFor t.report.turnId with
    | (.ok (.fragment text), s') =>
      if text = "" then next t s'
      else (some (.ok text), { t with text := t.text ++ text }, s')
    | (.ok (.endOfStream reason), s') =>
      (none, { t with stopReason := some reason, done := true }, s')
    | (.error e, s') => (some (.error e), { t with done := true }, s')
termination_by s.stepsLeft
decreasing_by exact Session.stepsLeft_decodeStepFor_lt _hstep

/-- A piece of text brings the end of the turn nearer. -/
theorem stepsLeft_next_lt {t t' : TurnStream} {s s' : Session E} {text : String}
    (h : t.next s = (some (.ok text), t', s')) : s'.stepsLeft < s.stepsLeft := by
  fun_induction next t s with
  | case1 => simp at h
  | case2 s _ s₁ hstep ih => exact Nat.lt_trans (ih h) (Session.stepsLeft_decodeStepFor_lt hstep)
  | case3 s _ text s₁ hstep _ =>
    simp only [Prod.mk.injEq] at h
    exact h.2.2 ▸ Session.stepsLeft_decodeStepFor_lt hstep
  | case4 => simp at h
  | case5 => simp at h

/-- Takes all the text that is still to come, up to the first error. -/
def drain (t : TurnStream) (s : Session E) : Except SessionError Unit × TurnStream × Session E :=
  match _hnext : t.next s with
  | (none, t, s) => (.ok (), t, s)
  | (some (.ok _), t', s') => drain t' s'
  | (some (.error e), t, s) => (.error e, t, s)
termination_by s.stepsLeft
decreasing_by exact stepsLeft_next_lt _hnext

end TurnStream

namespace Worker

variable {E : Engine}

/-- A worker whose session holds nothing yet. -/
def start (world : E.World) (options : SessionOptions) (defaults : TurnDefaults) : Worker E where
  session := { options, world }
  defaults := defaults

/-- Does something with the session. -/
def withSession {α : Type} (w : Worker E) (f : Session E → α × Session E) : α × Worker E :=
  ((f w.session).1, { w with session := (f w.session).2 })

/-- Loads a model. -/
def loadModel (w : Worker E) (path : String) : Except SessionError ModelSummary × Worker E :=
  w.withSession fun s => s.load path

/-- Replaces the context. -/
def reloadContext (w : Worker E) (threads contextSize : Option UInt32) :
    Except SessionError Unit × Worker E :=
  w.withSession fun s => s.reload threads contextSize

/-- Gives up the model. -/
def unload (w : Worker E) : Worker E := { w with session := w.session.unload }

/-- Empties the cache and drops its buffers. -/
def clearCache (w : Worker E) : Except SessionError Unit × Worker E :=
  w.withSession fun s => s.clearCache true

/-- Runs a benchmark. -/
def benchmark (w : Worker E) (shape : BenchShape) : Except SessionError BenchReport × Worker E :=
  w.withSession fun s => s.benchmark shape

/-- What the engine tells about its build and the hardware. -/
def systemInfo (_ : Worker E) : String := E.systemInfo

/-- Begins a turn; the cache stays as it is. -/
def beginTurn (w : Worker E) (prompt : String) (parseControl : Bool) (maxNewTokens : Nat) :
    Except SessionError PrefillReport × Worker E :=
  w.withSession fun s => s.prefill prompt parseControl maxNewTokens

/-- One step of the current turn. -/
def stepTurn (w : Worker E) : Except SessionError Step × Worker E :=
  w.withSession Session.decodeStep

/-- Begins a turn, with an empty cache if the defaults ask for that, and streams it. -/
def streamTurn (w : Worker E) (prompt : String) (parseControl : Bool) (maxNewTokens : Nat) :
    Except SessionError TurnStream × Worker E :=
  let cleared := if w.defaults.clearCacheBetweenTurns then w.clearCache else (.ok (), w)
  match cleared with
  | (.error e, w) => (.error e, w)
  | (.ok (), w) =>
    match w.beginTurn prompt parseControl maxNewTokens with
    | (.error e, w) => (.error e, w)
    | (.ok report, w) => (.ok { report }, w)

/-- Sends a message in a conversation and streams the reply.  The conversation has the
message only if the turn has begun. -/
def send (w : Worker E) (conversation : Conversation) (text : String) :
    Except SessionError TurnStream × Conversation × Worker E :=
  let pending := conversation.push { role := .user, content := text }
  match w.streamTurn pending.render w.defaults.parseSpecial w.defaults.maxNewTokens with
  | (.error e, w) => (.error e, conversation, w)
  | (.ok stream, w) => (.ok stream, pending, w)

/-- The next piece of a stream's text. -/
def nextOf (w : Worker E) (stream : TurnStream) :
    Option (Except SessionError String) × TurnStream × Worker E :=
  let (item, stream, session) := stream.next w.session
  (item, stream, { w with session })

/-- All the text of a stream. -/
def collectText (w : Worker E) (stream : TurnStream) : Except SessionError String × Worker E :=
  match stream.drain w.session with
  | (.error e, _, session) => (.error e, { w with session })
  | (.ok (), stream, session) => (.ok stream.text, { w with session })

/-- All the text of a stream, which becomes the reply in a conversation. -/
def finishInto (w : Worker E) (stream : TurnStream) (conversation : Conversation) :
    Except SessionError String × Conversation × Worker E :=
  match w.collectText stream with
  | (.error e, w) => (.error e, conversation, w)
  | (.ok text, w) => (.ok text, conversation.push { role := .assistant, content := text }, w)

end Worker
end LlmSession
