import LlmSession.Proofs.Worker.Drain

/-!
# Streams and conversations

A worker keeps no conversations.  They belong to its callers, who hand one in when they send a
message and again when the reply is complete, and may hold any number of them beside any number of
streams.  This file puts all of it on one desk: the worker, the streams, the conversations, and
whatever can be asked for with them.

## Streams that are used up

To drain a stream is the last thing that can be done with it.  So the desk notes which streams were
drained, and has them asked for nothing more.

## Interruptions

Where callers share a worker, a stream that is drained may be interrupted between two of its steps.
Up to the interruption that is a number of single steps (`Request.poll`), and after it the rest is
drained; so such a run is a run here as well.

## Main definitions

* `Desk`, `Errand`, `Desk.serve`: all that can be asked for.
* `Desk.after`, `Desk.items`: a run, and what a stream gives in it.
* `Desk.Does`, `Desk.does`: the ways of an errand.

## Main statements

* `Desk.Keeps.after`: what the streams know is tied to what they gave, after every run.
-/

namespace LlmSession

/-! ## The desk -/

/-- A worker with the streams on it, and the conversations of its callers. -/
structure Desk (E : Engine) where
  /-- The worker and its streams, oldest first. -/
  caller : Caller E
  /-- The streams that were drained.  They are used up, whatever came of it. -/
  spent : List Nat := []
  /-- The conversations, oldest first. -/
  conversations : List Conversation := []

/-- What can be asked for at a desk. -/
inductive Errand where
  /-- Something of the worker, or some text of a stream. -/
  | ask (r : Request)
  /-- A new conversation, with a system prompt unless that is blank. -/
  | begin (systemPrompt : String)
  /-- A conversation is to have nothing left but what is from the system. -/
  | reset (conversation : Nat)
  /-- A message is to be sent in a conversation. -/
  | send (conversation : Nat) (text : String)
  /-- All the text of a stream. -/
  | collect (stream : Nat)
  /-- All the text of a stream, which is to become the reply in a conversation. -/
  | finish (stream conversation : Nat)

/-- What comes back. -/
inductive Outcome where
  /-- The worker's reply. -/
  | replied (reply : Reply)
  /-- It is done. -/
  | done
  /-- All the text of a stream, or what kept it from its end. -/
  | told (answer : Except SessionError String)
  /-- There is no such stream or conversation. -/
  | missing

/-- The stream that an errand drains. -/
def Errand.drains? : Errand → Option Nat
  | .collect index => some index
  | .finish index _ => some index
  | _ => none

namespace Desk

variable {E : Engine}

/-- A stream that is not used up. -/
def stream? (d : Desk E) (index : Nat) : Option TurnStream :=
  if index ∈ d.spent then none else d.caller.streams[index]?

/-- Does what is asked for. -/
def serve (d : Desk E) : Errand → Outcome × Desk E
  | .ask r =>
    if ∃ index ∈ d.spent, r.asked? = some index then (.missing, d)
    else (.replied (d.caller.serve r).1, { d with caller := (d.caller.serve r).2 })
  | .begin systemPrompt =>
    (.done, { d with conversations := d.conversations ++ [.ofSystemPrompt systemPrompt] })
  | .reset i =>
    match d.conversations[i]? with
    | none => (.missing, d)
    | some c => (.done, { d with conversations := d.conversations.set i c.reset })
  | .send i text =>
    match d.conversations[i]? with
    | none => (.missing, d)
    | some c =>
      (.replied (d.caller.serve (.send c text)).1, { d with
        caller := (d.caller.serve (.send c text)).2
        conversations := d.conversations.set i (d.caller.worker.send c text).2.1 })
  | .collect index =>
    match d.stream? index with
    | none => (.missing, d)
    | some stream =>
      (.told (d.caller.worker.collectText stream).1, { d with
        caller := { d.caller with worker := (d.caller.worker.collectText stream).2 }
        spent := index :: d.spent })
  | .finish index i =>
    match d.stream? index, d.conversations[i]? with
    | some stream, some c =>
      (.told (d.caller.worker.finishInto stream c).1, { d with
        caller := { d.caller with worker := (d.caller.worker.finishInto stream c).2.2 }
        spent := index :: d.spent
        conversations := d.conversations.set i (d.caller.worker.finishInto stream c).2.1 })
    | _, _ => (.missing, d)

/-- The desk after a run. -/
def after (d : Desk E) : List Errand → Desk E
  | [] => d
  | errand :: errands => (d.serve errand).2.after errands

/-- What a stream gives in an errand that has this outcome: when it is asked, or when it is
drained. -/
def given (d : Desk E) (index : Nat) : Errand → Outcome → List (Except SessionError String)
  | .ask r, .replied _ => (d.caller.item? index r).join.toList
  | errand, .told _ =>
    if errand.drains? = some index then
      ((d.stream? index).map fun stream => stream.drained d.caller.worker.session).getD []
    else []
  | _, _ => []

/-- All that a stream gives in a run. -/
def items (d : Desk E) (index : Nat) : List Errand → List (Except SessionError String)
  | [] => []
  | errand :: errands =>
    d.given index errand (d.serve errand).1 ++ (d.serve errand).2.items index errands

/-- What a stream gives in one run after another. -/
theorem items_append (d : Desk E) (index : Nat) (errands more : List Errand) :
    d.items index (errands ++ more) =
      d.items index errands ++ (d.after errands).items index more := by
  induction errands generalizing d with
  | nil => rfl
  | cons errand errands ih =>
    rw [List.cons_append, items, ih, items, List.append_assoc]
    rfl

/-- A desk with nothing on it yet but a worker, whose engine is under observation. -/
def observed (options : SessionOptions) (defaults : TurnDefaults) (world : E.World) :
    Desk E.recorded where
  caller := Caller.observed options defaults world

/-! ## All that an errand can do -/

/-- The desk with another session. -/
def withSession (d : Desk E) (session : Session E) : Desk E :=
  { d with caller := d.caller.withSession session }

/-- The ways of an errand. -/
inductive Does (d : Desk E) : Errand → Outcome × Desk E → Prop where
  /-- There is no such stream or conversation. -/
  | missing {errand : Errand} : Does d errand (.missing, d)
  /-- The worker or a stream is asked. -/
  | asked {r : Request} {reply : Reply} {caller : Caller E}
    (hr : ∀ index ∈ d.spent, r.asked? ≠ some index) (hserve : d.caller.serve r = (reply, caller)) :
    Does d (.ask r) (.replied reply, { d with caller })
  /-- A conversation begins. -/
  | begun {systemPrompt : String} : Does d (.begin systemPrompt)
      (.done, { d with conversations := d.conversations ++ [.ofSystemPrompt systemPrompt] })
  /-- A conversation is reset. -/
  | reset {i : Nat} {c : Conversation} (hc : d.conversations[i]? = some c) :
    Does d (.reset i) (.done, { d with conversations := d.conversations.set i c.reset })
  /-- No turn begins for a message. -/
  | unsent {i : Nat} {text : String} {c : Conversation} {e : SessionError} {caller : Caller E}
    (hc : d.conversations[i]? = some c)
    (hserve : d.caller.serve (.send c text) = (.opened (.error e), caller)) :
    Does d (.send i text) (.replied (.opened (.error e)), { d with caller })
  /-- A message is sent. -/
  | sent {i : Nat} {text : String} {c : Conversation} {report : PrefillReport} {caller : Caller E}
    (hc : d.conversations[i]? = some c)
    (hserve : d.caller.serve (.send c text) = (.opened (.ok report), caller)) :
    Does d (.send i text) (.replied (.opened (.ok report)), { d with
      caller
      conversations := d.conversations.set i (c.push { role := .user, content := text }) })
  /-- A stream cannot be drained. -/
  | failed {errand : Errand} {index : Nat} {stream stream' : TurnStream} {e : SessionError}
    {s' : Session E} (hdrains : errand.drains? = some index)
    (hstream : d.stream? index = some stream)
    (hdrain : stream.drain d.caller.worker.session = (.error e, stream', s')) :
    Does d errand (.told (.error e), { d.withSession s' with spent := index :: d.spent })
  /-- A stream is drained for its text. -/
  | collected {index : Nat} {stream stream' : TurnStream} {s' : Session E}
    (hstream : d.stream? index = some stream)
    (hdrain : stream.drain d.caller.worker.session = (.ok (), stream', s')) :
    Does d (.collect index)
      (.told (.ok stream'.text), { d.withSession s' with spent := index :: d.spent })
  /-- A stream is drained for its text, which is the reply in a conversation. -/
  | finished {index i : Nat} {stream stream' : TurnStream} {c : Conversation} {s' : Session E}
    (hstream : d.stream? index = some stream) (hc : d.conversations[i]? = some c)
    (hdrain : stream.drain d.caller.worker.session = (.ok (), stream', s')) :
    Does d (.finish index i) (.told (.ok stream'.text), { d.withSession s' with
      spent := index :: d.spent
      conversations :=
        d.conversations.set i (c.push { role := .assistant, content := stream'.text }) })

theorem set_of_getElem? {i : Nat} {c : Conversation} {conversations : List Conversation}
    (hc : conversations[i]? = some c) : conversations.set i c = conversations := by
  obtain ⟨hlt, rfl⟩ := List.getElem?_eq_some_iff.1 hc
  exact List.set_getElem_self hlt

/-- **A message** changes its conversation only if it is sent. -/
theorem does_send (d : Desk E) (i : Nat) (text : String) :
    d.Does (.send i text) (d.serve (.send i text)) := by
  rw [serve]
  split
  · exact .missing
  next c hc =>
  rcases d.caller.worker.send_cases c text with ⟨e, w', hsend⟩ | ⟨report, w', hsend⟩
  · have hserve : d.caller.serve (.send c text) = d.caller.opening (.error e, w') := by
      rw [Caller.serve, hsend]
    rw [hsend, hserve, set_of_getElem? hc]
    exact .unsent hc hserve
  · have hserve : d.caller.serve (.send c text) = d.caller.opening (.ok { report }, w') := by
      rw [Caller.serve, hsend]
    rw [hsend, hserve]
    exact .sent hc hserve

/-- **An errand goes one of these ways.** -/
theorem does (d : Desk E) (errand : Errand) : d.Does errand (d.serve errand) := by
  cases errand with
  | ask r =>
    rw [serve]
    split
    · exact .missing
    · next hr =>
      have hr : ∀ index ∈ d.spent, r.asked? ≠ some index :=
        fun index hindex hasked => hr ⟨index, hindex, hasked⟩
      exact .asked hr rfl
  | begin systemPrompt => exact .begun
  | reset i =>
    rw [serve]
    split
    · exact .missing
    · next hc => exact .reset hc
  | send i text => exact d.does_send i text
  | collect index =>
    rw [serve]
    split
    · exact .missing
    · next stream hstream =>
      rcases hdrain : stream.drain d.caller.worker.session with ⟨e | _, stream', s'⟩
      · rw [Worker.collectText_of_drain_eq_error hdrain]
        exact .failed rfl hstream hdrain
      · rw [Worker.collectText_of_drain_eq_ok hdrain]
        exact .collected hstream hdrain
  | finish index i =>
    rw [serve]
    split
    · next stream c hstream hc =>
      rcases hdrain : stream.drain d.caller.worker.session with ⟨e | _, stream', s'⟩
      · rw [Worker.finishInto_of_drain_eq_error hdrain, set_of_getElem? hc]
        exact .failed rfl hstream hdrain
      · rw [Worker.finishInto_of_drain_eq_ok hdrain]
        exact .finished hstream hc hdrain
    · exact .missing

/-! ## What a run gives -/

end Desk

namespace Caller

variable {E : Engine} {c : Caller E} {r : Request} {result : Reply × Caller E} {index : Nat}

/-- A stream that is not there gives nothing. -/
theorem item?_of_getElem?_eq_none (h : c.streams[index]? = none) (r : Request) :
    c.item? index r = none := by
  by_cases hr : r.asked? = some index
  · have hserve : (c.serve r).1 = .noStream := by
      cases r with
      | next _ =>
        cases hr
        rw [serve, pulling, h]
      | poll _ =>
        cases hr
        rw [serve, pulling, h]
      | _ => cases hr
    rw [item?, hserve]
  · exact item?_of_ne hr

/-- A stream that was not there before is new. -/
theorem Serves.exists_report_of_new (h : c.Serves r result) {t : TurnStream}
    (hnone : c.streams[index]? = none) (ht : result.2.streams[index]? = some t) :
    ∃ report, t = { report } := by
  cases h with
  | performed _ _ => exact nomatch hnone.symm.trans ht
  | blocked _ _ => exact nomatch hnone.symm.trans ht
  | unopened _ _ => exact nomatch hnone.symm.trans ht
  | opened _ _ =>
    have hlen : c.streams.length ≤ index := List.getElem?_eq_none_iff.1 hnone
    rw [List.getElem?_append_right hlen] at ht
    exact ⟨_, List.mem_singleton.1 (List.mem_of_getElem? ht)⟩
  | pulled _ _ _ =>
    obtain ⟨hlt, -⟩ := List.getElem?_eq_some_iff.1 ht
    rw [List.length_set] at hlt
    exact absurd (List.getElem?_eq_none_iff.1 hnone) (Nat.not_le_of_lt hlt)
  | noStream _ _ => exact nomatch hnone.symm.trans ht

theorem Serves.length_streams_le (h : c.Serves r result) :
    c.streams.length ≤ result.2.streams.length := by
  cases h with
  | opened _ _ =>
    rw [List.length_append]
    exact Nat.le_add_right _ _
  | pulled _ _ _ => exact Nat.le_of_eq List.length_set.symm
  | _ => exact Nat.le_refl _

end Caller

namespace Desk

variable {E : Engine} {d : Desk E}

/-- What every stream knows is tied to what it gave. -/
structure Keeps (d : Desk E) (past : Nat → List (Except SessionError String)) : Prop where
  tells : ∀ index t, d.stream? index = some t → t.Tells (past index)
  fresh : ∀ index, d.caller.streams.length ≤ index → past index = []

variable {past : Nat → List (Except SessionError String)}

theorem stream?_eq_some {index : Nat} {t : TurnStream} :
    d.stream? index = some t ↔ index ∉ d.spent ∧ d.caller.streams[index]? = some t := by
  unfold stream?
  split
  · next hspent =>
    constructor
    · intro h
      cases h
    · rintro ⟨hunspent, -⟩
      exact absurd hspent hunspent
  · next hspent => exact (and_iff_right hspent).symm

/-- **A request** keeps the tie. -/
theorem Keeps.ask (h : d.Keeps past) {r : Request} {reply : Reply} {d' : Desk E}
    (hserve : d.caller.serve r = (reply, d'.caller)) (hspent : d'.spent = d.spent) :
    d'.Keeps fun index => past index ++ (d.caller.item? index r).join.toList := by
  have hserves := d.caller.serves r
  rw [hserve] at hserves
  refine ⟨fun index t ht => ?_, fun index hindex => ?_⟩
  · obtain ⟨hunspent, ht⟩ := stream?_eq_some.1 ht
    rw [hspent] at hunspent
    cases hold : d.caller.streams[index]? with
    | none =>
      -- the stream was opened just now
      obtain ⟨report, rfl⟩ := hserves.exists_report_of_new hold ht
      have hlen : d.caller.streams.length ≤ index := List.getElem?_eq_none_iff.1 hold
      rw [h.fresh index hlen, Caller.item?_of_getElem?_eq_none hold]
      exact TurnStream.tells_new report
    | some t₀ =>
      have htells := h.tells index t₀ (stream?_eq_some.2 ⟨hunspent, hold⟩)
      by_cases hasked : r.asked? = some index
      · obtain ⟨answer, t', s', hpull, hresult⟩ := hserves.exists_pulls hasked hold
        obtain ⟨hlt, -⟩ := List.getElem?_eq_some_iff.1 hold
        obtain ⟨rfl, hcaller⟩ := Prod.mk.inj hresult
        have hself : d'.caller.streams[index]? = some t' := by
          rw [hcaller]
          exact List.getElem?_set_self hlt
        cases hself.symm.trans ht
        rw [Caller.item?_of_asked? hasked (congrArg Prod.fst hserve)]
        exact htells.pulls hpull
      · rw [hserves.getElem?_streams hold hasked] at ht
        cases ht
        rw [Caller.item?_of_ne hasked]
        exact (List.append_nil (past index)).symm ▸ htells
  · have hlen := Nat.le_trans hserves.length_streams_le hindex
    rw [h.fresh index hlen, Caller.item?_of_getElem?_eq_none (List.getElem?_eq_none_iff.2 hlen)]
    rfl

/-- **A drain** uses a stream up, and leaves the others as they were. -/
theorem Keeps.drain (h : d.Keeps past) {errand : Errand} {index : Nat}
    (hdrains : errand.drains? = some index) (answer : Except SessionError String)
    {d' : Desk E} (hstreams : d'.caller.streams = d.caller.streams)
    (hspent : d'.spent = index :: d.spent) :
    d'.Keeps fun other => past other ++ d.given other errand (.told answer) := by
  have hgiven {other : Nat} (hother : d.stream? other = none ∨ index ≠ other) :
      d.given other errand (.told answer) = [] := by
    have hdrained : d.given other errand (.told answer) = if errand.drains? = some other then
        ((d.stream? other).map fun stream => stream.drained d.caller.worker.session).getD []
      else [] := by cases errand <;> rfl
    rw [hdrained, hdrains]
    rcases hother with hnone | hne
    · rw [hnone]
      exact ite_self []
    · exact if_neg fun heq => hne (Option.some.inj heq)
  refine ⟨fun other t ht => ?_, fun other hother => ?_⟩
  · obtain ⟨hunspent, ht⟩ := stream?_eq_some.1 ht
    rw [hspent, List.mem_cons, not_or] at hunspent
    rw [hstreams] at ht
    rw [hgiven (Or.inr fun heq => hunspent.1 heq.symm), List.append_nil]
    exact h.tells other t (stream?_eq_some.2 ⟨hunspent.2, ht⟩)
  · rw [hstreams] at hother
    have hnone : d.stream? other = none := by
      rw [stream?, List.getElem?_eq_none_iff.2 hother, ite_self]
    rw [h.fresh other hother, hgiven (Or.inl hnone)]
    rfl

/-- What gives nothing keeps the tie as long as the streams stay. -/
theorem Keeps.of_given_eq_nil (h : d.Keeps past) {errand : Errand} {outcome : Outcome}
    (hgiven : ∀ index, d.given index errand outcome = []) {d' : Desk E}
    (hstreams : d'.caller.streams = d.caller.streams) (hspent : d'.spent = d.spent) :
    d'.Keeps fun index => past index ++ d.given index errand outcome := by
  refine ⟨fun index t ht => ?_, fun index hindex => ?_⟩
  · rw [stream?_eq_some, hspent, hstreams, ← stream?_eq_some] at ht
    rw [hgiven, List.append_nil]
    exact h.tells index t ht
  · rw [hstreams] at hindex
    rw [hgiven, List.append_nil]
    exact h.fresh index hindex

/-- **A message** gives nothing by itself. -/
theorem Keeps.send (h : d.Keeps past) {c : Conversation} {i : Nat} {text : String}
    {answer : Except SessionError PrefillReport} {d' : Desk E}
    (hserve : d.caller.serve (.send c text) = (.opened answer, d'.caller))
    (hspent : d'.spent = d.spent) :
    d'.Keeps fun index => past index ++
      d.given index (.send i text) (.replied (.opened answer)) := by
  have hasked := h.ask hserve hspent
  have hitem : (fun index => past index ++ (d.caller.item? index (.send c text)).join.toList) =
      fun index => past index ++ d.given index (.send i text) (.replied (.opened answer)) := by
    funext index
    have hasks : (Request.send c text).asked? ≠ some index := nofun
    rw [Caller.item?_of_ne hasks]
    rfl
  rwa [hitem] at hasked

/-- **An errand** keeps the tie. -/
theorem Keeps.does (h : d.Keeps past) {errand : Errand} {outcome : Outcome} {d' : Desk E}
    (hdoes : d.Does errand (outcome, d')) :
    d'.Keeps fun index => past index ++ d.given index errand outcome := by
  cases hdoes with
  | missing => exact h.of_given_eq_nil (fun _ => by cases errand <;> rfl) rfl rfl
  | asked hr hserve => exact h.ask hserve rfl
  | begun => exact h.of_given_eq_nil (fun _ => rfl) rfl rfl
  | reset hc => exact h.of_given_eq_nil (fun _ => rfl) rfl rfl
  | unsent hc hserve => exact h.send hserve rfl
  | sent hc hserve => exact h.send hserve rfl
  | failed hdrains hstream hdrain => exact h.drain hdrains _ rfl rfl
  | collected hstream hdrain => exact h.drain rfl _ rfl rfl
  | finished hstream hc hdrain => exact h.drain rfl _ rfl rfl

/-- **A run** keeps the tie. -/
theorem Keeps.after (h : d.Keeps past) (errands : List Errand) :
    (d.after errands).Keeps fun index => past index ++ d.items index errands := by
  induction errands generalizing d past with
  | nil =>
    simp only [items, List.append_nil]
    exact h
  | cons errand errands ih =>
    have hrest := ih (h.does (d.does errand))
    simp only [List.append_assoc] at hrest
    exact hrest

/-- At a desk with nothing on it there is nothing to tie. -/
theorem keeps_observed (options : SessionOptions) (defaults : TurnDefaults) (world : E.World) :
    (observed options defaults world).Keeps fun _ => [] := ⟨nofun, fun _ _ => rfl⟩

/-- **What a stream knows** after any run is tied to what it gave in it. -/
theorem tells_of_after {options : SessionOptions} {defaults : TurnDefaults} {world : E.World}
    {past : List Errand} {index : Nat} {t : TurnStream}
    (ht : ((observed options defaults world).after past).stream? index = some t) :
    t.Tells ((observed options defaults world).items index past) :=
  ((keeps_observed options defaults world).after past).tells index t ht

end Desk
end LlmSession
