import LlmSession.Proofs.Worker.Desk

/-!
# When a reply is complete

A stream that is drained either comes to the end of its turn, and then it knows why the turn is
over, or a step fails, and then the drain gives that error.  So one would take a reply that comes
back for a complete one.

It need not be.  A stream that gave an error when it was asked for the next text is over as well.
Draining it takes no step and gives no error, since there is nothing left to give: what comes back
is the text up to the error, as if it were the reply.  `Desk.complete_iff` says that this is the only
case.  It is about all that has been given before, in whatever order things were asked for, and so
takes the tie between a stream and what it gave (`Desk.tells_of_after`).

## Main statements

* `TurnStream.Tells.stopReason_drain`: a drain that goes well ends with a reason, unless the stream
  had failed before.
* `Desk.complete_iff`: when a reply that comes back is complete.
-/

namespace LlmSession

namespace TurnStream

variable {E : Engine} {t : TurnStream} {items : List (Except SessionError String)}

/-- A drain that goes well ends with a reason, unless the stream had failed before. -/
theorem Tells.stopReason_drain (h : t.Tells items) {s : Session E} (hitems : ¬ Fails items)
    (hdrain : (t.drain s).1 = .ok ()) : (t.drain s).2.1.stopReason ≠ none := by
  have htells := h.drain s
  obtain ⟨-, -, -, hdone⟩ := t.exists_steps_of_drain s
  have hnot : ¬ Fails (items ++ t.drained s) := by
    rw [fails_append]
    exact not_or.2 ⟨hitems, drain_eq_ok_iff.1 hdrain⟩
  exact (htells.done_iff.1 hdone).resolve_right hnot

end TurnStream

namespace Worker

variable {E : Engine} {w : Worker E} {t : TurnStream}

/-- Finishing a stream is collecting its text, and putting it down. -/
theorem finishInto_eq (w : Worker E) (t : TurnStream) (c : Conversation) :
    (w.finishInto t c).1 = (w.collectText t).1 ∧
      (w.finishInto t c).2.2 = (w.collectText t).2 := by
  rcases hdrain : t.drain w.session with ⟨e | _, t', s'⟩
  · rw [finishInto_of_drain_eq_error hdrain, collectText_of_drain_eq_error hdrain]
    exact ⟨rfl, rfl⟩
  · rw [finishInto_of_drain_eq_ok hdrain, collectText_of_drain_eq_ok hdrain]
    exact ⟨rfl, rfl⟩

/-- Collecting the text fails exactly if the stream fails while it is drained. -/
theorem collectText_eq_error_iff {e : SessionError} :
    (w.collectText t).1 = .error e ↔ .error e ∈ t.drained w.session := by
  rw [← TurnStream.drain_eq_error_iff]
  rcases hdrain : t.drain w.session with ⟨e' | _, t', s'⟩
  · rw [collectText_of_drain_eq_error hdrain, Except.error.injEq, Except.error.injEq]
  · rw [collectText_of_drain_eq_ok hdrain]
    constructor
    · intro h
      cases h
    · intro h
      cases h

/-- A stream that is over is collected as it is. -/
theorem collectText_of_done (hdone : t.done = true) : w.collectText t = (.ok t.text, w) := by
  have hdrain := (TurnStream.drain_of_done hdone w.session).1
  exact collectText_of_drain_eq_ok hdrain

theorem finishInto_of_done (hdone : t.done = true) (c : Conversation) :
    w.finishInto t c = (.ok t.text, c.push { role := .assistant, content := t.text }, w) := by
  have hdrain := (TurnStream.drain_of_done hdone w.session).1
  exact finishInto_of_drain_eq_ok hdrain c

/-- A stream that fails while it is finished leaves the conversation alone. -/
theorem conversation_finishInto_of_fails (hfails : TurnStream.Fails (t.drained w.session))
    (c : Conversation) : (w.finishInto t c).2.1 = c := by
  obtain ⟨e, he⟩ := TurnStream.fails_drained_iff.1 hfails
  rcases hdrain : t.drain w.session with ⟨e' | _, t', s'⟩
  · rw [finishInto_of_drain_eq_error hdrain]
  · rw [hdrain] at he
    exact nomatch he

end Worker

/-! ## Replies -/

namespace Desk

variable {E : Engine}

/-- **When a reply is complete.**  Take a stream after any run, and ask for all of its text.  An
error that it gives then comes back, and no conversation has the reply.  Otherwise a reply comes
back, and it is complete, with a reason for its end, if and only if the stream had not failed
before.  If it had, the text up to the error comes back as the reply, without a step and without a
reason, and the conversation takes it. -/
theorem complete_iff (options : SessionOptions) (defaults : TurnDefaults) (world : E.World)
    (past : List Errand) (index : Nat) (stream : TurnStream)
    (hstream : ((observed options defaults world).after past).stream? index = some stream)
    (c : Conversation) :
    let w := ((observed options defaults world).after past).caller.worker
    let given := (observed options defaults world).items index past
    let rest := stream.drained w.session
    (w.finishInto stream c).1 = (w.collectText stream).1 ∧
    (∀ e, (w.collectText stream).1 = .error e ↔ .error e ∈ rest) ∧
    (TurnStream.Fails rest → (w.finishInto stream c).2.1 = c) ∧
    (((∃ reply, (w.collectText stream).1 = .ok reply) →
      (stream.drain w.session).2.1.stopReason ≠ none) ↔ ¬ TurnStream.Fails given) ∧
    (TurnStream.Fails given → stream.stopReason = none ∧
      w.collectText stream = (.ok stream.text, w) ∧
      w.finishInto stream c =
        (.ok stream.text, c.push { role := .assistant, content := stream.text }, w)) := by
  intro w given rest
  have htells : stream.Tells given := tells_of_after hstream
  have hfailed (hgiven : TurnStream.Fails given) : stream.stopReason = none ∧
      w.collectText stream = (.ok stream.text, w) ∧
      w.finishInto stream c =
        (.ok stream.text, c.push { role := .assistant, content := stream.text }, w) := by
    obtain ⟨hdone, hreason⟩ := htells.of_fails hgiven
    exact ⟨hreason, Worker.collectText_of_done hdone, Worker.finishInto_of_done hdone c⟩
  refine ⟨(w.finishInto_eq stream c).1, fun e => Worker.collectText_eq_error_iff,
    fun hrest => Worker.conversation_finishInto_of_fails hrest c, ?_, hfailed⟩
  constructor
  · -- a stream that failed is drained without a reason
    intro hcomplete hgiven
    obtain ⟨hdone, hreason⟩ := htells.of_fails hgiven
    obtain ⟨-, hcollect, -⟩ := hfailed hgiven
    have hends := hcomplete ⟨stream.text, by rw [hcollect]⟩
    rw [(TurnStream.drain_of_done hdone w.session).1] at hends
    exact hends hreason
  · rintro hgiven ⟨reply, hreply⟩
    have hrest : ¬ TurnStream.Fails rest := by
      rintro ⟨e, he⟩
      rw [Worker.collectText_eq_error_iff.2 he] at hreply
      exact nomatch hreply
    exact htells.stopReason_drain hgiven (TurnStream.drain_eq_ok_iff.2 hrest)

/-- The pass of the second token fails while the stream is asked for its text.  The stream is
finished nevertheless, and the first token is the reply. -/
theorem complete_iff_of_failed_pass :
    let script : Script := { replies := [.ofByte 0x68, .ofByte 0x69], failDecode := [3] }
    let start := observed (E := script.engine) {} {} ({} : Script.World)
    let past : List Errand :=
      [.begin "", .ask (.load "model"), .send 0 "a", .ask (.next 0), .ask (.next 0)]
    start.items 0 past = [.ok "h", .error (.decodeFailed "injected at call 3")] ∧
      ∃ stream, (start.after past).stream? 0 = some stream ∧ stream.stopReason = none ∧
        ∀ c, (start.after past).caller.worker.finishInto stream c =
          (.ok "h", c.push { role := .assistant, content := "h" },
            (start.after past).caller.worker) := by
  intro script start past
  have hitems : start.items 0 past = [.ok "h", .error (.decodeFailed "injected at call 3")] := by
    decide +kernel
  have hstream : (start.after past).stream? 0 =
      some { report := ⟨1, 21, 533, 1024⟩, text := "h", done := true } := by decide +kernel
  have hfails : TurnStream.Fails (start.items 0 past) := by
    rw [hitems]
    exact ⟨_, List.mem_cons_of_mem _ (List.mem_singleton_self _)⟩
  refine ⟨hitems, _, hstream, rfl, fun c => ?_⟩
  obtain ⟨-, -, -, -, hgave⟩ :=
    complete_iff (E := script.engine) {} {} ({} : Script.World) past 0 _ hstream c
  obtain ⟨-, -, hfinish⟩ := hgave hfails
  generalize (start.after past).caller.worker = w at hfinish ⊢
  exact hfinish

end Desk
end LlmSession
