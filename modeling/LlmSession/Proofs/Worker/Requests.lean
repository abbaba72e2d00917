import LlmSession.Proofs.Session.Operations
import LlmSession.Worker

/-!
# Requests to a worker

A caller has one worker and the streams that it opened on it, and asks for one thing after the
other: something of the session, a stream, or the next piece of text of some stream.  This file
gives a type to the requests, so that statements can speak of every interleaving at once, and says
what a request can do.

To the session a request is a few operations, so what every operation keeps is kept by every
request.  What is new is the list of streams: a stream that is opened comes last, and a stream that
is asked is the only one that changes.

## A request may come in the middle of another

A worker does one step at a time, and `TurnStream.next` asks for as many as it takes until there is
some text.  Where several callers share a worker, what one of them asks for may be done between two
steps of another's `next`.  So there is a request for a single step of it as well
(`TurnStream.poll`), and a `next` that is interrupted is a number of these with other requests
between them.  No other request asks the worker more than once.

## Main definitions

* `TurnStream.poll`: a single step of `next`.
* `Caller`, `Request`, `Caller.serve`: a worker with the streams that are open on it, and all that
  can be asked of it.
* `Caller.after`, `Caller.reports`, `Caller.items`: a run, the turns that begin in it, and what one
  of the streams gives.
* `Worker.ready`: the session on which a streamed turn begins.
* `Caller.Serves`, `Caller.serves`: the ways of a request.
-/

namespace LlmSession

/-! ## Streaming a turn -/

namespace Worker

variable {E : Engine} {w : Worker E} {prompt : String} {parseControl : Bool} {maxNewTokens : Nat}

/-- The session on which a streamed turn begins: its cache is emptied first, if the defaults ask
for that. -/
def ready (w : Worker E) : Session E :=
  if w.defaults.clearCacheBetweenTurns then (w.session.clearCache true).2 else w.session

/-- There is a cache to be emptied, or none is to be emptied. -/
def CanReady (w : Worker E) : Prop :=
  w.defaults.clearCacheBetweenTurns = true → ∃ l, w.session.phase = .loaded l

theorem ready_of_clears (h : w.defaults.clearCacheBetweenTurns = true) :
    w.ready = (w.session.clearCache true).2 := if_pos h

theorem clearCache_of_loaded {l : Loaded E} (hl : w.session.phase = .loaded l) :
    w.clearCache = (.ok (), { w with session := (w.session.clearCache true).2 }) := by
  simp only [clearCache, withSession, Session.clearCache, hl]

theorem clearCache_of_not_loaded (h : ∀ l, w.session.phase ≠ .loaded l) :
    w.clearCache = (.error (w.session.refusal "clear the cache"), w) := by
  cases hphase : w.session.phase with
  | loaded l => exact absurd hphase (h l)
  | _ => simp only [clearCache, withSession, Session.clearCache, hphase]

/-- **A turn that is streamed** is a turn that begins on the session when it is ready. -/
theorem streamTurn_of_canReady (h : w.CanReady) :
    w.streamTurn prompt parseControl maxNewTokens =
      ((w.ready.prefill prompt parseControl maxNewTokens).1.map fun report => { report },
        { w with session := (w.ready.prefill prompt parseControl maxNewTokens).2 }) := by
  unfold streamTurn
  cases hclear : w.defaults.clearCacheBetweenTurns with
  | false =>
    rw [ready, hclear]
    simp only [beginTurn, withSession, Bool.false_eq_true, if_false]
    cases (w.session.prefill prompt parseControl maxNewTokens).1 <;> rfl
  | true =>
    obtain ⟨l, hl⟩ := h hclear
    rw [if_pos rfl, clearCache_of_loaded hl, ready_of_clears hclear]
    simp only [beginTurn, withSession]
    cases ((w.session.clearCache true).2.prefill prompt parseControl maxNewTokens).1 <;> rfl

/-- Without a cache to empty, nothing is done. -/
theorem streamTurn_of_not_canReady (h : ¬ w.CanReady) :
    w.streamTurn prompt parseControl maxNewTokens =
      (.error (w.session.refusal "clear the cache"), w) := by
  obtain ⟨hclear, hnot⟩ := Classical.not_imp.1 h
  unfold streamTurn
  rw [if_pos hclear, clearCache_of_not_loaded (not_exists.1 hnot)]

end Worker

/-! ## The steps of a stream -/

namespace TurnStream

variable {E : Engine}

/-- A single step of `next`: what the stream gives, or `none` if the step released no text and
another one is to follow. -/
def poll (t : TurnStream) (s : Session E) :
    Option (Option (Except SessionError String)) × TurnStream × Session E :=
  if t.done then (some none, t, s)
  else
    match s.decodeStepFor t.report.turnId with
    | (.ok (.fragment text), s') =>
      if text = "" then (none, t, s')
      else (some (some (.ok text)), { t with text := t.text ++ text }, s')
    | (.ok (.endOfStream reason), s') =>
      (some none, { t with stopReason := some reason, done := true }, s')
    | (.error e, s') => (some (some (.error e)), { t with done := true }, s')

/-- **Asking for text** is a number of steps that release none, and one more. -/
theorem exists_polls_of_next (t : TurnStream) (s : Session E) :
    ∃ n, (∀ k < n, (t.poll (s.after (List.replicate k (.stepFor t.report.turnId)))).1 = none) ∧
      t.poll (s.after (List.replicate n (.stepFor t.report.turnId))) =
        (some (t.next s).1, (t.next s).2) := by
  fun_induction next t s with
  | case1 s hdone =>
    exact ⟨0, fun k hk => absurd hk k.not_lt_zero, if_pos hdone⟩
  | case2 s hdone s₁ hstep ih =>
    obtain ⟨n, hnone, hsome⟩ := ih
    have hafter (k : Nat) : s.after (List.replicate (k + 1) (.stepFor t.report.turnId)) =
        s₁.after (List.replicate k (.stepFor t.report.turnId)) := by
      rw [List.replicate_succ, Session.after, Session.perform, hstep]
    refine ⟨n + 1, fun k hk => ?_, by rw [hafter]; exact hsome⟩
    cases k with
    | zero => simp only [List.replicate_zero, Session.after, poll, hdone, hstep]; rfl
    | succ k =>
      rw [hafter]
      exact hnone k (Nat.lt_of_succ_lt_succ hk)
  | case3 s hdone text s' hstep htext =>
    refine ⟨0, fun k hk => absurd hk k.not_lt_zero, ?_⟩
    simp only [List.replicate_zero, Session.after, poll, hdone, hstep, htext]
    rfl
  | case4 s hdone reason s' hstep =>
    refine ⟨0, fun k hk => absurd hk k.not_lt_zero, ?_⟩
    simp only [List.replicate_zero, Session.after, poll, hdone, hstep]
    rfl
  | case5 s hdone e s' hstep =>
    refine ⟨0, fun k hk => absurd hk k.not_lt_zero, ?_⟩
    simp only [List.replicate_zero, Session.after, poll, hdone, hstep]
    rfl

/-- The ways of asking a stream for text: until there is some, or a single step. -/
inductive Pulls (t : TurnStream) (s : Session E) :
    Option (Option (Except SessionError String)) × TurnStream × Session E → Prop where
  | next : Pulls t s (some (t.next s).1, (t.next s).2)
  | poll : Pulls t s (t.poll s)

variable {t t' : TurnStream} {s s' : Session E}
  {result : Option (Option (Except SessionError String)) × TurnStream × Session E}

/-- However a stream is asked, it makes a number of steps that release no text, and one more. -/
theorem Pulls.exists_polls (h : t.Pulls s result) :
    ∃ n, (∀ k < n, (t.poll (s.after (List.replicate k (.stepFor t.report.turnId)))).1 = none) ∧
      t.poll (s.after (List.replicate n (.stepFor t.report.turnId))) = result := by
  cases h with
  | next => exact t.exists_polls_of_next s
  | poll => exact ⟨0, fun k hk => absurd hk k.not_lt_zero, rfl⟩

end TurnStream

/-! ## Requests -/

/-- A worker and the streams that were opened on it, oldest first. -/
structure Caller (E : Engine) where
  /-- The worker. -/
  worker : Worker E
  /-- The streams, over or not. -/
  streams : List TurnStream := []

/-- What a worker can be asked for, and the streams on it. -/
inductive Request where
  | load (path : String)
  | unload
  | reload (threads contextSize : Option UInt32)
  | clear
  | benchmark (shape : BenchShape)
  | begin (prompt : String) (parseControl : Bool) (maxNewTokens : Nat)
  | stream (prompt : String) (parseControl : Bool) (maxNewTokens : Nat)
  | send (conversation : Conversation) (text : String)
  | step
  /-- Asks a stream for text until there is some. -/
  | next (index : Nat)
  /-- Makes a single step of this. -/
  | poll (index : Nat)

/-- What comes back. -/
inductive Reply where
  /-- The answer of the session. -/
  | answered (answer : Except SessionError Answer)
  /-- A stream was to be opened. -/
  | opened (answer : Except SessionError PrefillReport)
  /-- A stream was asked for text, and gave something or has nothing to give yet. -/
  | pulled (answer : Option (Option (Except SessionError String)))
  /-- There is no such stream. -/
  | noStream

/-- The report on a turn that has begun. -/
def Reply.report? : Reply → Option PrefillReport
  | .answered (.ok (.begun report)) => some report
  | .opened (.ok report) => some report
  | _ => none

theorem Reply.eq_of_report?_answered {answer : Except SessionError Answer} {report : PrefillReport}
    (h : (Reply.answered answer).report? = some report) : answer = .ok (.begun report) := by
  cases answer with
  | error e => exact nomatch h
  | ok a =>
    cases a with
    | begun report' =>
      cases h
      rfl
    | _ => exact nomatch h

/-- The operation that a request comes to, if it is one of the session's own. -/
def Request.operation? : Request → Option Operation
  | .load path => some (.load path)
  | .unload => some .unload
  | .reload threads contextSize => some (.reload threads contextSize)
  | .clear => some (.clearCache true)
  | .benchmark shape => some (.benchmark shape)
  | .begin prompt parseControl maxNewTokens => some (.prefill prompt parseControl maxNewTokens)
  | .step => some .step
  | .stream _ _ _ => none
  | .send _ _ => none
  | .next _ => none
  | .poll _ => none

/-- The turn that a request wants to have streamed: its prompt, how the prompt is to be read, and
the length of the reply. -/
def Request.turn? (defaults : TurnDefaults) : Request → Option (String × Bool × Nat)
  | .stream prompt parseControl maxNewTokens => some (prompt, parseControl, maxNewTokens)
  | .send conversation text =>
    some ((conversation.push { role := .user, content := text }).render, defaults.parseSpecial,
      defaults.maxNewTokens)
  | _ => none

/-- The stream that a request asks for text. -/
def Request.asked? : Request → Option Nat
  | .next index => some index
  | .poll index => some index
  | _ => none

theorem Request.operation?_of_asked? {r : Request} {index : Nat} (h : r.asked? = some index) :
    r.operation? = none := by
  cases r with
  | next _ => rfl
  | poll _ => rfl
  | _ => cases h

theorem Request.turn?_of_asked? {r : Request} {index : Nat} (h : r.asked? = some index)
    (defaults : TurnDefaults) : r.turn? defaults = none := by
  cases r with
  | next _ => rfl
  | poll _ => rfl
  | _ => cases h

namespace Caller

variable {E : Engine}

/-- Keeps a stream that was opened. -/
def opening (c : Caller E) : Except SessionError TurnStream × Worker E → Reply × Caller E
  | (.error e, worker) => (.opened (.error e), { c with worker })
  | (.ok stream, worker) =>
    (.opened (.ok stream.report), { worker, streams := c.streams ++ [stream] })

/-- Asks one of the streams for text, if it is there. -/
def pulling (c : Caller E) (index : Nat)
    (ask : TurnStream → Option (Option (Except SessionError String)) × TurnStream × Worker E) :
    Reply × Caller E :=
  match c.streams[index]? with
  | none => (.noStream, c)
  | some stream =>
    (.pulled (ask stream).1,
      { worker := (ask stream).2.2, streams := c.streams.set index (ask stream).2.1 })

/-- Does what is asked for. -/
def serve (c : Caller E) : Request → Reply × Caller E
  | .load path =>
    (.answered ((c.worker.loadModel path).1.map .loaded),
      { c with worker := (c.worker.loadModel path).2 })
  | .unload => (.answered (.ok .done), { c with worker := c.worker.unload })
  | .reload threads contextSize =>
    (.answered ((c.worker.reloadContext threads contextSize).1.map fun _ => .done),
      { c with worker := (c.worker.reloadContext threads contextSize).2 })
  | .clear =>
    (.answered (c.worker.clearCache.1.map fun _ => .done),
      { c with worker := c.worker.clearCache.2 })
  | .benchmark shape =>
    (.answered ((c.worker.benchmark shape).1.map .measured),
      { c with worker := (c.worker.benchmark shape).2 })
  | .begin prompt parseControl maxNewTokens =>
    (.answered ((c.worker.beginTurn prompt parseControl maxNewTokens).1.map .begun),
      { c with worker := (c.worker.beginTurn prompt parseControl maxNewTokens).2 })
  | .stream prompt parseControl maxNewTokens =>
    c.opening (c.worker.streamTurn prompt parseControl maxNewTokens)
  | .send conversation text =>
    c.opening ((c.worker.send conversation text).1, (c.worker.send conversation text).2.2)
  | .step =>
    (.answered (c.worker.stepTurn.1.map .stepped), { c with worker := c.worker.stepTurn.2 })
  | .next index =>
    c.pulling index fun stream =>
      (some (c.worker.nextOf stream).1, (c.worker.nextOf stream).2)
  | .poll index =>
    c.pulling index fun stream =>
      ((stream.poll c.worker.session).1, (stream.poll c.worker.session).2.1,
        { c.worker with session := (stream.poll c.worker.session).2.2 })

/-- The worker and its streams after a run. -/
def after (c : Caller E) : List Request → Caller E
  | [] => c
  | r :: rs => (c.serve r).2.after rs

/-- What a stream gives, if it is the one that is asked. -/
def item? (c : Caller E) (index : Nat) (r : Request) :
    Option (Option (Except SessionError String)) :=
  match (c.serve r).1 with
  | .pulled answer => if r.asked? = some index then answer else none
  | _ => none

/-- All that a stream gives in a run. -/
def items (c : Caller E) (index : Nat) : List Request → List (Option (Except SessionError String))
  | [] => []
  | r :: rs => (c.item? index r).toList ++ (c.serve r).2.items index rs

/-- The same caller with another session. -/
def withSession (c : Caller E) (session : Session E) : Caller E :=
  { c with worker := { c.worker with session } }

/-! ## All that a request can do -/

/-- The ways of a request. -/
inductive Serves (c : Caller E) : Request → Reply × Caller E → Prop where
  /-- An operation of the session. -/
  | performed {r : Request} (op : Operation) (hop : r.operation? = some op) :
    Serves c r (.answered (c.worker.session.perform op).1,
      c.withSession (c.worker.session.perform op).2)
  /-- There is no cache that could be emptied for the turn. -/
  | blocked {r : Request} {turn : String × Bool × Nat}
    (hturn : r.turn? c.worker.defaults = some turn) (h : ¬ c.worker.CanReady) :
    Serves c r (.opened (.error (c.worker.session.refusal "clear the cache")), c)
  /-- The turn does not begin. -/
  | unopened {r : Request} {prompt : String} {parseControl : Bool} {maxNewTokens : Nat}
    {e : SessionError} {s' : Session E}
    (hturn : r.turn? c.worker.defaults = some (prompt, parseControl, maxNewTokens))
    (hp : c.worker.ready.prefill prompt parseControl maxNewTokens = (.error e, s')) :
    Serves c r (.opened (.error e), c.withSession s')
  /-- The turn begins, and there is a stream for it. -/
  | opened {r : Request} {prompt : String} {parseControl : Bool} {maxNewTokens : Nat}
    {report : PrefillReport} {s' : Session E}
    (hturn : r.turn? c.worker.defaults = some (prompt, parseControl, maxNewTokens))
    (hp : c.worker.ready.prefill prompt parseControl maxNewTokens = (.ok report, s')) :
    Serves c r (.opened (.ok report),
      { c.withSession s' with streams := c.streams ++ [{ report }] })
  /-- A stream is asked for text. -/
  | pulled {r : Request} {index : Nat} {stream stream' : TurnStream} {s' : Session E}
    {answer : Option (Option (Except SessionError String))} (hr : r.asked? = some index)
    (hstream : c.streams[index]? = some stream)
    (hpull : stream.Pulls c.worker.session (answer, stream', s')) :
    Serves c r (.pulled answer,
      { c.withSession s' with streams := c.streams.set index stream' })
  /-- There is no stream that could be asked. -/
  | noStream {r : Request} {index : Nat} (hr : r.asked? = some index)
    (hstream : c.streams[index]? = none) : Serves c r (.noStream, c)

/-- A message that is sent opens a stream on the prompt of its conversation. -/
theorem serve_send (c : Caller E) (conversation : Conversation) (text : String) :
    c.serve (.send conversation text) =
      c.serve (.stream (conversation.push { role := .user, content := text }).render
        c.worker.defaults.parseSpecial c.worker.defaults.maxNewTokens) := by
  unfold serve Worker.send
  dsimp only
  rcases c.worker.streamTurn (conversation.push { role := .user, content := text }).render
    c.worker.defaults.parseSpecial c.worker.defaults.maxNewTokens with ⟨_ | _, _⟩ <;> rfl

theorem serves_stream (c : Caller E) {r : Request} {prompt : String} {parseControl : Bool}
    {maxNewTokens : Nat}
    (hturn : r.turn? c.worker.defaults = some (prompt, parseControl, maxNewTokens)) :
    c.Serves r (c.serve (.stream prompt parseControl maxNewTokens)) := by
  by_cases h : c.worker.CanReady
  · rcases hp : c.worker.ready.prefill prompt parseControl maxNewTokens with ⟨e | report, s'⟩
    · simp only [serve, Worker.streamTurn_of_canReady h, hp]
      exact .unopened hturn hp
    · simp only [serve, Worker.streamTurn_of_canReady h, hp]
      exact .opened hturn hp
  · rw [serve, Worker.streamTurn_of_not_canReady h]
    exact .blocked hturn h

theorem serves_pulling (c : Caller E) {r : Request} {index : Nat} (hr : r.asked? = some index)
    {ask : TurnStream → Option (Option (Except SessionError String)) × TurnStream × Worker E}
    (hask : ∀ stream, ∃ s', (ask stream).2.2 = { c.worker with session := s' } ∧
      stream.Pulls c.worker.session ((ask stream).1, (ask stream).2.1, s')) :
    c.Serves r (c.pulling index ask) := by
  unfold pulling
  cases hstream : c.streams[index]? with
  | none => exact .noStream hr hstream
  | some stream =>
    obtain ⟨s', hworker, hpull⟩ := hask stream
    dsimp only
    rw [hworker]
    exact .pulled hr hstream hpull

/-- **A request goes one of these ways.** -/
theorem serves (c : Caller E) (r : Request) : c.Serves r (c.serve r) := by
  cases r with
  | stream prompt parseControl maxNewTokens => exact c.serves_stream rfl
  | send conversation text =>
    rw [serve_send]
    exact c.serves_stream rfl
  | next index => exact c.serves_pulling rfl fun stream => ⟨_, rfl, .next⟩
  | poll index => exact c.serves_pulling rfl fun stream => ⟨_, rfl, .poll⟩
  | load path => exact .performed (.load path) rfl
  | unload => exact .performed .unload rfl
  | reload threads contextSize => exact .performed (.reload threads contextSize) rfl
  | clear => exact .performed (.clearCache true) rfl
  | benchmark shape => exact .performed (.benchmark shape) rfl
  | begin prompt parseControl maxNewTokens =>
    exact .performed (.prefill prompt parseControl maxNewTokens) rfl
  | step => exact .performed .step rfl

/-- A stream that is asked for text is asked in one of two ways. -/
theorem Serves.exists_pulls {c : Caller E} {r : Request} {result : Reply × Caller E}
    (h : c.Serves r result) {index : Nat} {t : TurnStream} (hr : r.asked? = some index)
    (ht : c.streams[index]? = some t) :
    ∃ answer t' s', t.Pulls c.worker.session (answer, t', s') ∧
      result = (.pulled answer, { c.withSession s' with streams := c.streams.set index t' }) := by
  cases h with
  | performed op hop =>
    rw [Request.operation?_of_asked? hr] at hop
    cases hop
  | blocked hturn _ =>
    rw [Request.turn?_of_asked? hr] at hturn
    cases hturn
  | unopened hturn _ =>
    rw [Request.turn?_of_asked? hr] at hturn
    cases hturn
  | opened hturn _ =>
    rw [Request.turn?_of_asked? hr] at hturn
    cases hturn
  | pulled hr' hstream hpull =>
    cases hr.symm.trans hr'
    cases ht.symm.trans hstream
    exact ⟨_, _, _, hpull, rfl⟩
  | noStream hr' hstream =>
    cases hr.symm.trans hr'
    cases ht.symm.trans hstream

end Caller
end LlmSession
