import LlmSession.Proofs.Cli.Reply
import LlmSession.Proofs.Worker.Desk
import LlmSession.Proofs.Worker.Prompts
import Mathlib.Data.List.Basic

/-!
# What is entered into conversations

A conversation is a ledger of what was said.  Apart from a reset there are two entries: a message
that was sent, and a reply that is complete.  `Errand.entered` says what an errand enters, given its
outcome, and nothing else is ever entered.

## What an entry stands for

An entry is made in one place, but what it speaks of happened in others.

* The message is entered when its turn has begun.  The prompt was made before, from a copy of the
  conversation; so it has to be shown that this copy is the conversation as it is afterwards.
* The reply is entered when its stream is drained.  Part of its text may have been given long before,
  piece by piece, between errands for other streams and conversations; so it has to be shown that
  the entry has all of it.

## Main statements

* `Desk.Does.conversations_eq`: what an errand enters.
* `Desk.Does.prefill`: the prompt of a message.
* `Desk.Does.reply_eq`: the text of a reply.
* `Desk.ledger`: all of this, and what a chat prints.
-/

namespace LlmSession

open TurnStream EngineCall

/-- What an errand with this outcome enters into the conversations. -/
def Errand.entered : Errand → Outcome → List Conversation → List Conversation
  | .begin systemPrompt, .done, conversations =>
    conversations ++ [.ofSystemPrompt systemPrompt]
  | .reset i, .done, conversations => conversations.modify i Conversation.reset
  | .send i text, .replied (.opened (.ok _)), conversations =>
    conversations.modify i (·.push { role := .user, content := text })
  | .finish _ i, .told (.ok reply), conversations =>
    conversations.modify i (·.push { role := .assistant, content := reply })
  | _, _, conversations => conversations

/-- Whether an outcome says that an errand failed. -/
def Outcome.IsFailure : Outcome → Prop
  | .replied (.opened (.error _)) => True
  | .told (.error _) => True
  | _ => False

/-- The text of a stream that was drained. -/
def Outcome.reply? : Outcome → Option String
  | .told (.ok reply) => some reply
  | _ => none

theorem Outcome.eq_of_reply? {outcome : Outcome} {reply : String}
    (h : outcome.reply? = some reply) : outcome = .told (.ok reply) := by
  unfold reply? at h
  split at h
  · rw [Option.some.inj h]
  · exact nomatch h

namespace Desk

variable {E : Engine}

/-- In a list, what stands at a place is modified by putting the other thing there. -/
theorem set_eq_modify {i : Nat} {c : Conversation} {conversations : List Conversation}
    (hc : conversations[i]? = some c) (f : Conversation → Conversation) :
    conversations.set i (f c) = conversations.modify i f := by
  rw [List.modify_eq_set_getElem?, hc]
  rfl

/-- **What an errand enters** into the conversations. -/
theorem Does.conversations_eq {d d' : Desk E} {errand : Errand} {outcome : Outcome}
    (h : d.Does errand (outcome, d')) :
    d'.conversations = errand.entered outcome d.conversations := by
  cases h with
  | missing => cases errand <;> rfl
  | asked hr hserve => rfl
  | begun => rfl
  | reset hc => exact set_eq_modify hc _
  | unsent hc hserve => rfl
  | sent hc hserve => exact set_eq_modify hc (·.push _)
  | failed hdrains hstream hdrain => cases errand <;> rfl
  | collected hstream hdrain => rfl
  | finished hstream hc hdrain => exact set_eq_modify hc (·.push _)

end Desk

theorem Caller.send_of_serve {E : Engine} {c c' : Caller E} {conversation : Conversation}
    {text : String} {report : PrefillReport}
    (h : c.serve (.send conversation text) = (.opened (.ok report), c')) :
    ∃ stream, c.worker.send conversation text =
      (.ok stream, conversation.push { role := .user, content := text }, c'.worker) := by
  rw [serve] at h
  rcases c.worker.send_cases conversation text with ⟨e, w', hsend⟩ | ⟨report', w', hsend⟩
  · rw [hsend] at h
    cases h
  · rw [hsend] at h
    cases h
    exact ⟨_, hsend⟩

namespace Desk

variable {E : Engine}

/-- The calls that the engine got so far, oldest first. -/
def calls (d : Desk E.recorded) : List EngineCall := d.caller.worker.session.calls

/-- **The prompt of a message** that was sent is that of its conversation, as it is afterwards. -/
theorem Does.prefill {d d' : Desk E.recorded} {i : Nat} {text : String} {report : PrefillReport}
    (h : d.Does (.send i text) (.replied (.opened (.ok report)), d')) :
    ∃ c new, d'.conversations[i]? = some c ∧ d'.calls = d.calls ++ new ∧
      Prefill (chatML c.messages true) d.caller.worker.defaults.parseSpecial new := by
  cases h with
  | @sent i text c report caller hc hserve =>
    obtain ⟨stream, hsend⟩ := Caller.send_of_serve hserve
    obtain ⟨new, hnew, hattempt⟩ := Worker.attempt_of_send hsend
    obtain ⟨hlt, -⟩ := List.getElem?_eq_some_iff.1 hc
    exact ⟨_, new, List.getElem?_set_self hlt, hnew, hattempt.prefill ⟨stream, rfl⟩⟩

/-- **The text of a reply** that was entered is all that its stream ever gave. -/
theorem Does.reply_eq {d d' : Desk E} {past : Nat → List (Except SessionError String)}
    {index i : Nat} {reply : String} (hd : d.Keeps past)
    (h : d.Does (.finish index i) (.told (.ok reply), d')) :
    reply = String.join
      (texts (past index ++ d.given index (.finish index i) (.told (.ok reply)))) := by
  cases h with
  | @finished index i stream stream' c s' hstream hc hdrain =>
    have hgiven : d.given index (.finish index i) (.told (.ok stream'.text)) =
        stream.drained d.caller.worker.session := by
      rw [given, Errand.drains?, if_pos rfl, hstream]
      rfl
    have htells := (hd.tells index stream hstream).drain d.caller.worker.session
    rw [hdrain] at htells
    rw [hgiven]
    exact htells.text_eq

/-- A failure enters nothing. -/
theorem entered_of_isFailure {outcome : Outcome} (h : outcome.IsFailure) (errand : Errand)
    (conversations : List Conversation) : errand.entered outcome conversations = conversations := by
  cases outcome with
  | replied reply =>
    cases reply with
    | opened answer =>
      cases answer with
      | error e => cases errand <;> rfl
      | ok report => exact h.elim
    | _ => exact h.elim
  | told answer =>
    cases answer with
    | error e => cases errand <;> rfl
    | ok reply => exact h.elim
  | _ => exact h.elim

/-- **Conversations are ledgers.**  After any run over any number of streams and conversations,
whichever calls of the engine fail, the next errand changes the conversations by its entry and by
nothing else, and a failure enters nothing.  If the entry is a message, the one prompt that the
engine read meanwhile, and put into the cache, is that of the conversation with this message.  If it
is a reply, it is all text that its stream ever gave, before or while it was drained.  And in a chat
the entry for a complete reply is what was printed of it. -/
theorem ledger (options : SessionOptions) (defaults : TurnDefaults) (world : E.World)
    (past : List Errand) (errand : Errand) :
    let start : Desk E.recorded := observed options defaults world
    let d := start.after past
    let outcome := (d.serve errand).1
    let d' := (d.serve errand).2
    d'.conversations = errand.entered outcome d.conversations ∧
    (outcome.IsFailure → d'.conversations = d.conversations) ∧
    (∀ i text report, errand = .send i text → outcome = .replied (.opened (.ok report)) →
      ∃ c new, d'.conversations[i]? = some c ∧ d'.calls = d.calls ++ new ∧
        Prefill (chatML c.messages true) d.caller.worker.defaults.parseSpecial new) ∧
    (∀ index i reply, errand = .finish index i → outcome = .told (.ok reply) →
      reply = String.join (texts (start.items index (past ++ [errand])))) ∧
    ∀ (chat chat' : Cli.Chat E) (text : String) (outputs : List Cli.Output),
      chat.reply text = (outputs, .ok (), chat') →
      ∃ content, chat'.conversation.messages = chat.conversation.messages ++
          [{ role := .user, content := text }, { role := .assistant, content }] ∧
        Cli.stdoutText outputs = content ++ "\n" := by
  intro start d outcome d'
  have hdoes : d.Does errand (outcome, d') := d.does errand
  have hkeeps : d.Keeps fun index => start.items index past := by
    have h := (keeps_observed options defaults world).after past
    simp only [List.nil_append] at h
    exact h
  have hentered := hdoes.conversations_eq
  refine ⟨hentered, ?_, ?_, ?_, ?_⟩
  · intro hfails
    exact hentered.trans (entered_of_isFailure hfails errand d.conversations)
  · intro i text report herrand houtcome
    rw [herrand, houtcome] at hdoes
    exact hdoes.prefill
  · intro index i reply herrand houtcome
    have hitems : start.items index (past ++ [errand]) =
        start.items index past ++ d.given index errand outcome := by
      rw [items_append, items, items, List.append_nil]
    rw [hitems, herrand, houtcome]
    rw [herrand, houtcome] at hdoes
    exact hdoes.reply_eq hkeeps
  · intro chat chat' text outputs hreply
    have hreplies := chat.replies text
    rw [hreply] at hreplies
    exact hreplies.printed

/-- One piece of the reply is given before the stream is finished, and the other one then.  The
other conversation stays empty. -/
theorem ledger_of_two_pieces :
    let script : Script := { replies := [.ofByte 0x68, .ofByte 0x69] }
    let start := observed (E := script.engine) {} {} ({} : Script.World)
    let past : List Errand :=
      [.begin "s", .begin "", .ask (.load "model"), .send 0 "a", .ask (.next 0)]
    texts (start.items 0 past) = ["h"] ∧
      texts (start.items 0 (past ++ [.finish 0 0])) = ["h", "i"] ∧
      ((start.after past).serve (.finish 0 0)).1 = .told (.ok "hi") ∧
      ((start.after past).serve (.finish 0 0)).2.conversations =
        [⟨[⟨.system, "s"⟩, ⟨.user, "a"⟩, ⟨.assistant, "hi"⟩]⟩, ⟨[]⟩] := by
  intro script start past
  have htold : ((start.after past).serve (.finish 0 0)).1.reply? = some "hi" := by decide +kernel
  have hconversations : (start.after past).conversations =
      [⟨[⟨.system, "s"⟩, ⟨.user, "a"⟩]⟩, ⟨[]⟩] := by decide +kernel
  have houtcome := Outcome.eq_of_reply? htold
  obtain ⟨hentered, -⟩ :=
    ledger (E := script.engine) {} {} ({} : Script.World) past (.finish 0 0)
  refine ⟨by decide +kernel, by decide +kernel, houtcome, ?_⟩
  generalize (start.after past).serve (.finish 0 0) = result at houtcome hentered ⊢
  generalize (start.after past).conversations = conversations at hconversations hentered
  rw [houtcome, hconversations] at hentered
  exact hentered

end Desk
end LlmSession
