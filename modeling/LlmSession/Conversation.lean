import LlmSession.Text.Blank

/-!
# Conversations

What was said so far, by whom, and the prompt that asks a model for what comes next.  The
prompt is in ChatML: each message stands between two control texts, and the reply that is
asked for is a message that is opened and not closed.

## Main definitions

* `Role`, `Message`: who says what.
* `chatML`: the prompt for a list of messages.
* `Conversation`: the messages so far, after an optional system prompt.
-/

namespace LlmSession

/-- Who says something. -/
inductive Role where
  /-- Whoever set up the conversation. -/
  | system
  /-- The user. -/
  | user
  /-- The model. -/
  | assistant
  deriving DecidableEq, Repr

/-- The name of a role in prompts and in files. -/
def Role.tag : Role → String
  | .system => "system"
  | .user => "user"
  | .assistant => "assistant"

/-- Something that was said. -/
structure Message where
  /-- Who said it. -/
  role : Role
  /-- What was said. -/
  content : String
  deriving DecidableEq, Repr

/-! ## Prompts -/

/-- The control text that opens a message. -/
def messageStart : String := "<|im_start|>"

/-- The control text that closes a message. -/
def messageEnd : String := "<|im_end|>"

/-- A message in a prompt. -/
def Message.chatML (m : Message) : String :=
  messageStart ++ m.role.tag ++ "\n" ++ m.content ++ messageEnd ++ "\n"

/-- The prompt for some messages, which may open the reply of the model. -/
def chatML (messages : List Message) (openReply : Bool) : String :=
  String.join (messages.map Message.chatML) ++
    if openReply then messageStart ++ Role.assistant.tag ++ "\n" else ""

/-! ## Conversations -/

/-- What was said so far. -/
structure Conversation where
  /-- The messages, oldest first. -/
  messages : List Message := []
  deriving DecidableEq, Repr

namespace Conversation

/-- A conversation that begins with a system prompt, unless that is blank. -/
def ofSystemPrompt (prompt : String) : Conversation :=
  if Text.isBlankText prompt then {} else { messages := [{ role := .system, content := prompt }] }

/-- The conversation with one more message. -/
def push (c : Conversation) (m : Message) : Conversation := { messages := c.messages ++ [m] }

/-- The last message, if it is of the given role. -/
def lastFrom? (c : Conversation) (role : Role) : Option Message :=
  c.messages.getLast?.filter fun m => decide (m.role = role)

/-- The prompt for the model's next reply. -/
def render (c : Conversation) : String := chatML c.messages true

/-- The conversation with nothing left but what is from the system. -/
def reset (c : Conversation) : Conversation :=
  { messages := c.messages.filter fun m => decide (m.role = .system) }

@[simp] theorem messages_push (c : Conversation) (m : Message) :
    (c.push m).messages = c.messages ++ [m] := rfl

end Conversation
end LlmSession
