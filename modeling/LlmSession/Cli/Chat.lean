import LlmSession.Text.Utf8
import LlmSession.Worker

/-!
# The chat command

A chat reads one line after the other.  A line that is empty but for blanks is passed over,
`/quit` ends the chat and `/reset` begins a new conversation; every other line is sent, and
the reply is printed as it comes.  A reply that fails is reported, and the chat goes on.

What is printed is a list of `Output`s, so that a chat is a function of the lines that are
read.

## Main definitions

* `Chat.reply`: one message and its reply.
* `Chat.line`: one line.
* `Chat.run`: a whole chat.
-/

namespace LlmSession
namespace Cli

/-- Something that is printed. -/
inductive Output where
  /-- Where replies go. -/
  | out (text : String)
  /-- Where errors go. -/
  | err (text : String)
  deriving DecidableEq, Repr

/-- The text that went where replies go. -/
def stdoutText (outputs : List Output) : String :=
  String.join (outputs.filterMap fun
    | .out text => some text
    | .err _ => none)

/-- The text that went where errors go. -/
def stderrText (outputs : List Output) : String :=
  String.join (outputs.filterMap fun
    | .out _ => none
    | .err text => some text)

/-- The line that reports an error. -/
def errorLine (message : String) : Output := .err ("error: " ++ message ++ "\n")

/-- The chat so far. -/
structure Chat (E : Engine) where
  /-- The worker with the model. -/
  worker : Worker E
  /-- What was said. -/
  conversation : Conversation

/-- What becomes of a chat after a line. -/
inductive ChatStep (E : Engine) where
  /-- It goes on. -/
  | goOn (chat : Chat E)
  /-- It is over. -/
  | quit (chat : Chat E)
  /-- It cannot go on. -/
  | failed (chat : Chat E) (message : String)

/-- What ends the program with a failure where a line is not text. -/
def notTextMessage : String := "stream did not contain valid UTF-8"

namespace Chat

variable {E : Engine}

/-- Prints the pieces of a stream as they come, up to its end or the first error. -/
def printStream (stream : TurnStream) (s : Session E) :
    List Output × Except SessionError TurnStream × Session E :=
  match _hnext : stream.next s with
  | (none, stream, s) => ([], .ok stream, s)
  | (some (.ok text), stream', s') =>
    let (outputs, outcome, s'') := printStream stream' s'
    (.out text :: outputs, outcome, s'')
  | (some (.error e), _, s) => ([], .error e, s)
termination_by s.stepsLeft
decreasing_by exact TurnStream.stepsLeft_next_lt _hnext

/-- Sends a message and prints the reply.  The reply becomes part of the conversation when it
is complete. -/
def reply (c : Chat E) (text : String) : List Output × Except SessionError Unit × Chat E :=
  match c.worker.send c.conversation text with
  | (.error e, conversation, worker) => ([], .error e, { worker, conversation })
  | (.ok stream, conversation, worker) =>
    match printStream stream worker.session with
    | (outputs, .error e, session) =>
      (outputs, .error e, { worker := { worker with session }, conversation })
    | (outputs, .ok stream, session) =>
      match Worker.finishInto { worker with session } stream conversation with
      | (.error e, conversation, worker) =>
        (outputs ++ [.out "\n"], .error e, { worker, conversation })
      | (.ok _, conversation, worker) =>
        (outputs ++ [.out "\n"], .ok (), { worker, conversation })

/-- What is done with one line. -/
def line (c : Chat E) (text : String) : List Output × ChatStep E :=
  let text := Text.trim text
  if text = "" then ([], .goOn c)
  else if text = "/quit" then ([], .quit c)
  else if text = "/reset" then
    let conversation := c.conversation.reset
    match c.worker.clearCache with
    | (.ok (), worker) => ([], .goOn { worker, conversation })
    | (.error e, worker) => ([], .failed { worker, conversation } e.message)
  else
    match c.reply text with
    | (outputs, .ok (), c) => (outputs, .goOn c)
    | (outputs, .error e, c) => (outputs ++ [.out "\n", errorLine e.message], .goOn c)

/-- What is printed in front of every line. -/
def promptOutput : Output := .out "> "

/-- What is done with the bytes of one line. -/
def lineOfBytes (c : Chat E) (bytes : List UInt8) : List Output × ChatStep E :=
  match Utf8.decode? bytes with
  | some text => c.line text
  | none => ([], .failed c notTextMessage)

/-- A whole chat over the given lines, with the message that it failed with, if any. -/
def run (c : Chat E) : List (List UInt8) → List Output × Option String × Chat E
  | [] => ([promptOutput], none, c)
  | bytes :: rest =>
    match c.lineOfBytes bytes with
    | (outputs, .goOn c) =>
      let (more, failure, c) := run c rest
      (promptOutput :: outputs ++ more, failure, c)
    | (outputs, .quit c) => (promptOutput :: outputs, none, c)
    | (outputs, .failed c message) => (promptOutput :: outputs, some message, c)

end Chat

/-- The lines of some bytes, each with the line feed that ends it. -/
def linesOfBytes : List UInt8 → List (List UInt8)
  | [] => []
  | b :: bs =>
    if b = 10 then [b] :: linesOfBytes bs
    else
      match linesOfBytes bs with
      | [] => [[b]]
      | line :: lines => (b :: line) :: lines

end Cli
end LlmSession
