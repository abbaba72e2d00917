import LlmSession.Cli.Chat
import LlmSession.Proofs.Worker.Drain

/-!
# Sending a message in a chat

A chat asks the stream of a reply for one piece of text after the other, prints each, and finishes
the stream when there are no more.  To finish it is to drain it; but at that point nothing is left to
drain, so the second half of the job cannot fail.  A message goes one of three ways: no turn begins
for it, or its stream fails while it is printed, or its reply is complete (`Chat.Replies`).

In the second case the conversation has the message and no reply to it.

## Main statements

* `Chat.printStream_eq`: a stream that is printed is drained, and what it gives is printed.
* `Chat.replies`: the ways of a message.
* `Chat.Replies.printed`: what was printed of a complete reply is what the conversation has of it.
-/

namespace LlmSession
namespace Cli

open TurnStream

/-! ## What is printed -/

theorem stdoutText_map_out (texts : List String) :
    stdoutText (texts.map .out) = String.join texts := by
  rw [stdoutText, List.filterMap_map]
  exact congrArg String.join List.filterMap_some

theorem stdoutText_append (outputs more : List Output) :
    stdoutText (outputs ++ more) = stdoutText outputs ++ stdoutText more := by
  rw [stdoutText, List.filterMap_append, String.join_append]
  rfl

namespace Chat

variable {E : Engine}

/-! ## Printing a stream -/

/-- **A stream that is printed** is drained, and what it gives is printed. -/
theorem printStream_eq (t : TurnStream) (s : Session E) :
    printStream t s = ((texts (t.drained s)).map .out,
      (t.drain s).1.map fun _ => (t.drain s).2.1, (t.drain s).2.2) := by
  fun_induction printStream t s with
  | case1 t s t' s' hnext =>
    obtain ⟨hdrain, hdrained⟩ := drain_of_next_eq_none hnext
    rw [hdrain, hdrained]
    rfl
  | case2 t s text t' s' hnext outputs outcome s'' hprint ih =>
    obtain ⟨hdrain, hdrained⟩ := drain_of_next_eq_text hnext
    rw [hdrain, hdrained]
    rw [hprint] at ih
    obtain ⟨rfl, houtcome⟩ := Prod.mk.inj ih
    rw [houtcome]
    rfl
  | case3 t s e t' s' hnext =>
    obtain ⟨hdrain, hdrained⟩ := drain_of_next_eq_error hnext
    rw [hdrain, hdrained]
    rfl

/-! ## The ways of a message -/

/-- The ways of a message. -/
inductive Replies (c : Chat E) (text : String) :
    List Output × Except SessionError Unit × Chat E → Prop where
  /-- No turn begins. -/
  | unsent {e : SessionError} {worker : Worker E}
    (hsend : c.worker.send c.conversation text = (.error e, c.conversation, worker)) :
    Replies c text ([], .error e, { c with worker })
  /-- The stream fails.  What it gave before is printed, and the message stays. -/
  | broken {report : PrefillReport} {worker : Worker E} {t : TurnStream} {e : SessionError}
    {session : Session E}
    (hsend : c.worker.send c.conversation text =
      (.ok { report }, c.conversation.push { role := .user, content := text }, worker))
    (hdrain : TurnStream.drain { report } worker.session = (.error e, t, session)) :
    Replies c text ((texts (drained { report } worker.session)).map .out, .error e, {
      worker := { worker with session }
      conversation := c.conversation.push { role := .user, content := text } })
  /-- The reply is complete. -/
  | complete {report : PrefillReport} {worker : Worker E} {t : TurnStream} {session : Session E}
    (hsend : c.worker.send c.conversation text =
      (.ok { report }, c.conversation.push { role := .user, content := text }, worker))
    (hdrain : TurnStream.drain { report } worker.session = (.ok (), t, session)) :
    Replies c text ((texts (drained { report } worker.session)).map .out ++ [.out "\n"], .ok (), {
      worker := { worker with session }
      conversation := (c.conversation.push { role := .user, content := text }).push
        { role := .assistant, content := String.join (texts (drained { report } worker.session)) } })

/-- **A message goes one of these ways.** -/
theorem replies (c : Chat E) (text : String) : c.Replies text (c.reply text) := by
  rcases c.worker.send_cases c.conversation text with ⟨e, w, hsend⟩ | ⟨report, w, hsend⟩
  · rw [reply, hsend]
    exact .unsent hsend
  rw [reply, hsend]
  dsimp only
  rw [printStream_eq]
  rcases hdrain : TurnStream.drain { report } w.session with ⟨e | _, t, session⟩
  · exact .broken hsend hdrain
  · -- the stream is over, so nothing is left for it to fail at
    have htext := text_drain_new report w.session
    obtain ⟨-, -, -, hdone⟩ := exists_steps_of_drain { report } w.session
    rw [hdrain] at htext hdone
    have hfinish := Worker.finishInto_of_drain_eq_ok (w := { w with session })
      (drain_of_done hdone session).1
    dsimp only [Except.map]
    rw [hfinish, htext]
    exact .complete hsend hdrain

/-- **What was printed** of a complete reply is what the conversation has of it. -/
theorem Replies.printed {c c' : Chat E} {text : String} {outputs : List Output}
    (h : c.Replies text (outputs, .ok (), c')) :
    ∃ content, c'.conversation.messages = c.conversation.messages ++
        [{ role := .user, content := text }, { role := .assistant, content }] ∧
      stdoutText outputs = content ++ "\n" := by
  cases h with
  | @complete report worker t session hsend hdrain =>
    refine ⟨String.join (texts (drained { report } worker.session)), ?_, ?_⟩
    · rw [Conversation.messages_push, Conversation.messages_push, List.append_assoc]
      rfl
    · rw [stdoutText_append, stdoutText_map_out]
      rfl

end Chat
end Cli
end LlmSession
