import LlmSession.Proofs.Cli.Reply
import LlmSession.Proofs.Worker.Prompts

/-!
# What a chat has of its lines

Every line of a chat that is no command is a message, and the prompt for its reply is made from all
that was said since the last reset.  One would take it for a dialogue: user and model take turns, and
the user, who is waiting for a reply, has the last word.

Mostly it is.  A message that cannot be sent leaves nothing behind, and a reply that is complete
follows its message.  But a reply that fails on the way leaves its message, and the chat goes on.
From then on the user says two things in a row in every prompt, up to the next reset.

## Exchanges

So what a chat has of its lines is a list of exchanges, each a message with its reply if there is one
(`Chat.exchanges`).  The conversation is the system's part with these exchanges
(`Chat.Recalls.after`), and whether it is a dialogue depends on whether a reply is missing among
them.

## Main statements

* `Chat.run_append`: what `Chat.after` has to do with a chat.
* `Chat.Recalls.after`: the conversation of a chat.
* `takesTurns_iff`, `adjacent_users_iff`: when exchanges are a dialogue.
* `Chat.isDialogue_iff`: when a chat asks for its reply with a dialogue.
-/

namespace LlmSession

/-! ## Dialogues -/

/-- Whether user and model take turns, the user first and last. -/
def takesTurns : List Role → Bool
  | [.user] => true
  | .user :: .assistant :: rest => takesTurns rest
  | _ => false

/-- Whether a conversation is a dialogue that waits for a reply, but for what is from the system. -/
def Conversation.isDialogue (c : Conversation) : Bool :=
  match c.messages.map Message.role with
  | .system :: roles => takesTurns roles
  | roles => takesTurns roles

/-- A message and its reply, if there is one. -/
structure Exchange where
  /-- The message. -/
  message : String
  /-- The reply. -/
  reply : Option String
  deriving DecidableEq, Repr

/-- What a conversation has of an exchange. -/
def Exchange.messages (x : Exchange) : List Message :=
  { role := .user, content := x.message } ::
    (x.reply.map fun reply => { role := .assistant, content := reply }).toList

/-- Who speaks in some exchanges. -/
def rolesOf (exchanges : List Exchange) : List Role :=
  (exchanges.flatMap Exchange.messages).map Message.role

theorem rolesOf_cons_answered (message reply : String) (exchanges : List Exchange) :
    rolesOf (⟨message, some reply⟩ :: exchanges) = .user :: .assistant :: rolesOf exchanges := rfl

theorem rolesOf_cons_unanswered (message : String) (exchanges : List Exchange) :
    rolesOf (⟨message, none⟩ :: exchanges) = .user :: rolesOf exchanges := rfl

/-- A message after some exchanges: the user begins. -/
theorem exists_rolesOf_append_user (exchanges : List Exchange) :
    ∃ rest, rolesOf exchanges ++ [.user] = .user :: rest := by
  cases exchanges with
  | nil => exact ⟨[], rfl⟩
  | cons x exchanges => exact ⟨_, rfl⟩

/-- **Exchanges with one more message** are a dialogue if no reply is missing. -/
theorem takesTurns_iff (exchanges : List Exchange) :
    takesTurns (rolesOf exchanges ++ [.user]) = true ↔ ∀ x ∈ exchanges, x.reply ≠ none := by
  induction exchanges with
  | nil => exact ⟨fun _ => nofun, fun _ => rfl⟩
  | cons x exchanges ih =>
    obtain ⟨message, _ | reply⟩ := x
    · -- a message follows, so the user speaks twice
      obtain ⟨rest, hrest⟩ := exists_rolesOf_append_user exchanges
      rw [rolesOf_cons_unanswered, List.cons_append, hrest]
      constructor
      · intro h
        exact absurd h Bool.false_ne_true
      · intro h
        exact absurd rfl (h _ List.mem_cons_self)
    · rw [rolesOf_cons_answered, List.cons_append, List.cons_append, takesTurns, ih,
        List.forall_mem_cons]
      have hanswered : (some reply : Option String) ≠ none := Option.some_ne_none reply
      exact (and_iff_right hanswered).symm

/-- **The user speaks twice in a row** exactly if a reply is missing. -/
theorem adjacent_users_iff (exchanges : List Exchange) :
    [.user, .user] <:+: rolesOf exchanges ++ [.user] ↔ ∃ x ∈ exchanges, x.reply = none := by
  induction exchanges with
  | nil =>
    constructor
    · intro h
      exact absurd h.length_le (by decide)
    · rintro ⟨x, hx, -⟩
      exact absurd hx List.not_mem_nil
  | cons x exchanges ih =>
    obtain ⟨message, _ | reply⟩ := x
    · obtain ⟨rest, hrest⟩ := exists_rolesOf_append_user exchanges
      rw [rolesOf_cons_unanswered, List.cons_append, hrest]
      refine ⟨fun _ => ⟨_, List.mem_cons_self, rfl⟩, fun _ => ?_⟩
      exact (List.prefix_append [.user, .user] rest).isInfix
    · rw [rolesOf_cons_answered, List.cons_append, List.cons_append, List.infix_cons_iff,
        List.infix_cons_iff, ih]
      simp only [List.cons_prefix_cons, reduceCtorEq, false_and, and_false, false_or,
        List.mem_cons, exists_eq_or_imp]

/-! ## The lines of a chat -/

namespace Cli

/-- What a line is to a chat. -/
inductive Line where
  /-- Nothing but blanks. -/
  | blank
  /-- The end of the chat. -/
  | quit
  /-- A new conversation. -/
  | reset
  /-- Something to be sent. -/
  | message (text : String)
  deriving DecidableEq, Repr

/-- The line for a text. -/
def Line.ofText (text : String) : Line :=
  let text := Text.trim text
  if text = "" then .blank
  else if text = "/quit" then .quit
  else if text = "/reset" then .reset
  else .message text

/-- The line for some bytes, if they are text. -/
def Line.ofBytes? (bytes : List UInt8) : Option Line := (Utf8.decode? bytes).map ofText

namespace Chat

variable {E : Engine}

/-- What a message is to the conversation: nothing if it cannot be sent, and otherwise an exchange,
with a reply if that is complete. -/
def exchange? (c : Chat E) (text : String) : Option Exchange :=
  match c.worker.send c.conversation text with
  | (.error _, _, _) => none
  | (.ok stream, _, worker) => some ⟨text, (worker.collectText stream).1.toOption⟩

/-- The exchanges after a line. -/
def noted (c : Chat E) (exchanges : List Exchange) (bytes : List UInt8) : List Exchange :=
  match Line.ofBytes? bytes with
  | some .reset => []
  | some (.message text) => exchanges ++ (c.exchange? text).toList
  | _ => exchanges

/-- The chat after some lines, if it goes on so far. -/
def after (c : Chat E) : List (List UInt8) → Option (Chat E)
  | [] => some c
  | bytes :: rest =>
    match (c.lineOfBytes bytes).2 with
    | .goOn c' => c'.after rest
    | _ => none

/-- The exchanges since the last reset, after some lines. -/
def exchanges (c : Chat E) (past : List Exchange) : List (List UInt8) → List Exchange
  | [] => past
  | bytes :: rest =>
    match (c.lineOfBytes bytes).2 with
    | .goOn c' => c'.exchanges (c.noted past bytes) rest
    | _ => past

/-! ### One line -/

/-- **A line that lets the chat go on** is blank, a reset or a message. -/
theorem goOn_cases {c c' : Chat E} {bytes : List UInt8} (h : (c.lineOfBytes bytes).2 = .goOn c') :
    Line.ofBytes? bytes = some .blank ∧ c' = c ∨
      Line.ofBytes? bytes = some .reset ∧ c'.conversation = c.conversation.reset ∨
      ∃ text, Line.ofBytes? bytes = some (.message text) ∧ c' = (c.reply text).2.2 := by
  unfold lineOfBytes at h
  cases htext : Utf8.decode? bytes with
  | none =>
    rw [htext] at h
    exact nomatch h
  | some text =>
    rw [htext] at h
    have hline : Line.ofBytes? bytes = some (Line.ofText text) := by rw [Line.ofBytes?, htext]; rfl
    rw [hline]
    dsimp only at h
    unfold line at h
    unfold Line.ofText
    dsimp only at h ⊢
    split at h
    · next hblank =>
      cases h
      exact Or.inl ⟨by rw [if_pos hblank], rfl⟩
    next hblank =>
    rw [if_neg hblank]
    split at h
    · exact nomatch h
    next hquit =>
    rw [if_neg hquit]
    split at h
    · next hreset =>
      rw [if_pos hreset]
      split at h
      · cases h
        exact Or.inr (Or.inl ⟨rfl, rfl⟩)
      · exact nomatch h
    next hreset =>
    rw [if_neg hreset]
    refine Or.inr (Or.inr ⟨_, rfl, ?_⟩)
    split at h
    · next hreply =>
      cases h
      rw [hreply]
    · next hreply =>
      cases h
      rw [hreply]

/-- **A message** adds its exchange to the conversation. -/
theorem Replies.conversation_eq {c : Chat E} {text : String}
    {result : List Output × Except SessionError Unit × Chat E} (h : c.Replies text result) :
    result.2.2.conversation.messages =
      c.conversation.messages ++ (c.exchange? text).toList.flatMap Exchange.messages := by
  cases h with
  | unsent hsend =>
    rw [exchange?, hsend]
    exact (List.append_nil _).symm
  | broken hsend hdrain =>
    rw [exchange?, hsend]
    dsimp only
    rw [Worker.collectText_of_drain_eq_error hdrain]
    rfl
  | @complete report worker t session hsend hdrain =>
    have htext := TurnStream.text_drain_new report worker.session
    rw [hdrain] at htext
    rw [exchange?, hsend]
    dsimp only
    rw [Worker.collectText_of_drain_eq_ok hdrain, ← htext, Conversation.messages_push,
      Conversation.messages_push, List.append_assoc]
    rfl

/-! ### What is left after a reset -/

theorem role_ne_system_of_mem_messages {exchanges : List Exchange} {m : Message}
    (h : m ∈ exchanges.flatMap Exchange.messages) : m.role ≠ .system := by
  obtain ⟨⟨message, _ | reply⟩, -, hm⟩ := List.mem_flatMap.1 h
  · rw [List.mem_singleton.1 hm]
    exact nofun
  · rcases List.mem_cons.1 hm with rfl | hm
    · exact nofun
    · rw [List.mem_singleton.1 hm]
      exact nofun

/-- The system's part of a conversation is one message or none. -/
theorem messages_ofSystemPrompt (systemPrompt : String) :
    (Conversation.ofSystemPrompt systemPrompt).messages = [] ∨
      (Conversation.ofSystemPrompt systemPrompt).messages =
        [{ role := .system, content := systemPrompt }] := by
  unfold Conversation.ofSystemPrompt
  split
  · exact Or.inl rfl
  · exact Or.inr rfl

/-- The conversation of a chat: the system's part, and these exchanges. -/
def Recalls (systemPrompt : String) (c : Chat E) (exchanges : List Exchange) : Prop :=
  c.conversation.messages = (Conversation.ofSystemPrompt systemPrompt).messages ++
    exchanges.flatMap Exchange.messages

variable {systemPrompt : String} {exchanges : List Exchange}

/-- A reset leaves the system's part. -/
theorem Recalls.reset {c : Chat E} (h : c.Recalls systemPrompt exchanges) :
    c.conversation.reset.messages = (Conversation.ofSystemPrompt systemPrompt).messages := by
  have hexchanges : (exchanges.flatMap Exchange.messages).filter
      (fun m => decide (m.role = .system)) = [] := by
    rw [List.filter_eq_nil_iff]
    intro m hm
    rw [decide_eq_true_eq]
    exact role_ne_system_of_mem_messages hm
  rw [Conversation.reset, h, List.filter_append, hexchanges, List.append_nil]
  rcases messages_ofSystemPrompt systemPrompt with hnone | hone
  · rw [hnone]
    rfl
  · rw [hone]
    rfl

/-- **A line** keeps the conversation and its exchanges together. -/
theorem Recalls.lineOfBytes {c c' : Chat E} {bytes : List UInt8}
    (h : c.Recalls systemPrompt exchanges) (hline : (c.lineOfBytes bytes).2 = .goOn c') :
    c'.Recalls systemPrompt (c.noted exchanges bytes) := by
  rcases goOn_cases hline with ⟨hblank, rfl⟩ | ⟨hreset, hc'⟩ | ⟨text, hmessage, rfl⟩
  · rw [noted, hblank]
    exact h
  · rw [noted, hreset, Recalls, hc', h.reset]
    exact (List.append_nil _).symm
  · rw [noted, hmessage, Recalls, (c.replies text).conversation_eq, h, List.append_assoc,
      ← List.flatMap_append]

/-- **The conversation of a chat** is the system's part with the exchanges since the last reset. -/
theorem Recalls.after {c c' : Chat E} {lines : List (List UInt8)}
    (h : c.Recalls systemPrompt exchanges) (hlines : c.after lines = some c') :
    c'.Recalls systemPrompt (c.exchanges exchanges lines) := by
  induction lines generalizing c exchanges with
  | nil =>
    cases hlines
    exact h
  | cons bytes rest ih =>
    rw [Chat.after] at hlines
    rw [Chat.exchanges]
    split at hlines
    · next hline => exact ih (h.lineOfBytes hline) hlines
    · exact nomatch hlines

/-- A chat over lines that let it go on is the chat after them. -/
theorem run_append {c c' : Chat E} {lines : List (List UInt8)} (hlines : c.after lines = some c')
    (rest : List (List UInt8)) :
    ∃ outputs, c.run (lines ++ rest) = (outputs ++ (c'.run rest).1, (c'.run rest).2) := by
  induction lines generalizing c with
  | nil =>
    cases hlines
    exact ⟨[], rfl⟩
  | cons bytes lines ih =>
    rw [Chat.after] at hlines
    split at hlines
    · next c₁ hline =>
      obtain ⟨outputs, hrun⟩ := ih hlines
      rcases hbytes : c.lineOfBytes bytes with ⟨printed, next⟩
      rw [hbytes] at hline
      cases hline
      refine ⟨promptOutput :: printed ++ outputs, ?_⟩
      rw [List.cons_append, run, hbytes]
      dsimp only
      rw [hrun, List.append_assoc]
    · exact nomatch hlines

/-! ## What the model is asked -/

/-- The calls that the engine got so far, oldest first. -/
def calls (c : Chat E.recorded) : List EngineCall := c.worker.session.calls

/-- The conversation that a chat asks for a reply to a message with. -/
def asked (c : Chat E) (text : String) : Conversation :=
  c.conversation.push { role := .user, content := text }

/-- **A message** has the prompt of its conversation read, and no other.  If it is sent, the prompt
was read. -/
theorem Replies.prompts {c : Chat E.recorded} {text : String}
    {result : List Output × Except SessionError Unit × Chat E.recorded}
    (h : c.Replies text result) :
    ∃ new, result.2.2.calls = c.calls ++ new ∧
      (new.filterMap EngineCall.prompt? = [] ∨
        new.filterMap EngineCall.prompt? = [(c.asked text).render]) ∧
      (c.exchange? text ≠ none → new.filterMap EngineCall.prompt? = [(c.asked text).render]) := by
  -- once the message is sent, the stream is drained, and its steps read no prompt
  have hsent {report : PrefillReport} {worker : Worker E.recorded} {t : TurnStream}
      {outcome : Except SessionError Unit} {session : Session E.recorded}
      (hsend : c.worker.send c.conversation text =
        (.ok { report }, c.conversation.push { role := .user, content := text }, worker))
      (hdrain : TurnStream.drain { report } worker.session = (outcome, t, session)) :
      ∃ new, session.calls = c.calls ++ new ∧
        new.filterMap EngineCall.prompt? = [(c.asked text).render] := by
    obtain ⟨new, hnew, hattempt⟩ := Worker.attempt_of_send hsend
    obtain ⟨n, -, hsteps, -⟩ := TurnStream.exists_steps_of_drain { report } worker.session
    obtain ⟨more, hmore, hnone⟩ := worker.session.onlyGot_of_after_steps report.turnId n
    rw [hdrain] at hsteps
    dsimp only at hsteps
    have hcalls : session.calls = c.calls ++ (new ++ more) := by
      rw [Session.calls, hsteps, hmore, ← List.append_assoc]
      exact congrArg (· ++ more) hnew
    refine ⟨new ++ more, hcalls, ?_⟩
    rw [List.filterMap_append, (hattempt.prefill ⟨_, rfl⟩).prompts_eq,
      List.filterMap_eq_nil_iff.2 hnone]
    rfl
  cases h with
  | unsent hsend =>
    obtain ⟨new, hnew, hattempt⟩ := Worker.attempt_of_send hsend
    refine ⟨new, hnew, hattempt.prompts, fun hexchange => ?_⟩
    rw [exchange?, hsend] at hexchange
    exact absurd rfl hexchange
  | broken hsend hdrain =>
    obtain ⟨new, hnew, hprompts⟩ := hsent hsend hdrain
    exact ⟨new, hnew, Or.inr hprompts, fun _ => hprompts⟩
  | complete hsend hdrain =>
    obtain ⟨new, hnew, hprompts⟩ := hsent hsend hdrain
    exact ⟨new, hnew, Or.inr hprompts, fun _ => hprompts⟩

/-- Who speaks in the conversation that a chat asks with. -/
theorem Recalls.roles_asked {c : Chat E} (h : c.Recalls systemPrompt exchanges) (text : String) :
    (c.asked text).messages.map Message.role =
      (Conversation.ofSystemPrompt systemPrompt).messages.map Message.role ++
        (rolesOf exchanges ++ [.user]) := by
  rw [asked, Conversation.messages_push, h, List.map_append, List.map_append, List.append_assoc]
  rfl

/-- **A chat asks with a dialogue**, whatever its lines were, if and only if no reply is missing
since the last reset.  A reply is missing where the turn of its message began, and a step failed
before the turn was over.  Otherwise the user speaks twice in a row, and this is the prompt that
the engine gets. -/
theorem isDialogue_iff {start c : Chat E.recorded} {lines : List (List UInt8)}
    (hstart : start.conversation = .ofSystemPrompt systemPrompt)
    (hlines : start.after lines = some c) (text : String) :
    ((c.asked text).isDialogue = true ↔ ∀ x ∈ start.exchanges [] lines, x.reply ≠ none) ∧
    ([.user, .user] <:+: (c.asked text).messages.map Message.role ↔
      ∃ x ∈ start.exchanges [] lines, x.reply = none) ∧
    ∃ new, (c.reply text).2.2.calls = c.calls ++ new ∧
      (new.filterMap EngineCall.prompt? = [] ∨
        new.filterMap EngineCall.prompt? = [(c.asked text).render]) ∧
      (c.exchange? text ≠ none →
        new.filterMap EngineCall.prompt? = [(c.asked text).render]) := by
  have hrecalls : start.Recalls systemPrompt [] := by
    rw [Recalls, hstart]
    exact (List.append_nil _).symm
  have hroles := (hrecalls.after hlines).roles_asked text
  generalize start.exchanges [] lines = exchanges at hroles ⊢
  obtain ⟨rest, hrest⟩ := exists_rolesOf_append_user exchanges
  refine ⟨?_, ?_, (c.replies text).prompts⟩
  · rw [← takesTurns_iff, Conversation.isDialogue, hroles]
    rcases messages_ofSystemPrompt systemPrompt with hnone | hone
    · rw [hnone, List.map_nil, List.nil_append, hrest]
    · rw [hone]
      rfl
  · rw [← adjacent_users_iff, hroles]
    rcases messages_ofSystemPrompt systemPrompt with hnone | hone
    · rw [hnone, List.map_nil, List.nil_append]
    · rw [hone, List.map_singleton, List.singleton_append, List.infix_cons_iff]
      simp only [List.cons_prefix_cons, reduceCtorEq, false_and, false_or]

/-- The pass of the second token fails, so the first message has no reply.  The prompt for the second
message has both. -/
theorem isDialogue_iff_of_failed_pass :
    let script : Script := { replies := [.ofByte 0x68, .ofByte 0x69], failDecode := [3] }
    let start : Chat script.engine.recorded := {
      worker := ((Caller.observed (E := script.engine) {} {} ({} : Script.World)).after
        [.load "model"]).worker
      conversation := .ofSystemPrompt "" }
    start.exchanges [] [[0x61, 0x0A]] = [⟨"a", none⟩] ∧
      ∃ c, start.after [[0x61, 0x0A]] = some c ∧
        [.user, .user] <:+: (c.asked "b").messages.map Message.role ∧
        ∃ new, (c.reply "b").2.2.calls = c.calls ++ new ∧
          new.filterMap EngineCall.prompt? = [chatML [⟨.user, "a"⟩, ⟨.user, "b"⟩] true] := by
  intro script start
  have hexchanges : start.exchanges [] [[0x61, 0x0A]] = [⟨"a", none⟩] := by decide +kernel
  have hgoes : ((start.after [[0x61, 0x0A]]).map fun c =>
      (c.conversation, (c.exchange? "b").isSome)) = some (⟨[⟨.user, "a"⟩]⟩, true) := by
    decide +kernel
  obtain ⟨c, hc, hknown⟩ := Option.map_eq_some_iff.1 hgoes
  obtain ⟨hconversation, hsent⟩ := Prod.mk.inj hknown
  have hstart : start.conversation = .ofSystemPrompt "" := rfl
  obtain ⟨-, husers, new, hnew, -, hprompts⟩ := isDialogue_iff hstart hc "b"
  refine ⟨hexchanges, c, hc, husers.2 ?_, new, hnew, ?_⟩
  · rw [hexchanges]
    exact ⟨_, List.mem_singleton_self _, rfl⟩
  · rw [hprompts (Option.isSome_iff_ne_none.1 hsent), asked, hconversation]
    rfl

end Chat
end Cli
end LlmSession
