import LlmSession.Cli.Chat
import LlmSession.Cli.Help
import LlmSession.Storage

/-!
# The program

What the program does with its command line, apart from reading and printing.  The settings
come from the file that is named, or from the user's own; the command line changes them, and
then they are repaired.  Then a worker is started, and the command runs on it.

## Main definitions

* `Overrides.settings`: the settings that count.
* `Invocation.start`: the settings of a command and its worker.
* `execute`: the whole program, for an engine that is given.
-/

namespace LlmSession
namespace Cli

/-- The settings with the changes of a command line, not repaired. -/
def Overrides.apply (o : Overrides) (s : SessionSettings) : SessionSettings :=
  { s with
    threads := o.threads <|> s.threads
    contextSize := o.contextSize.getD s.contextSize
    maxNewTokens := o.maxTokens.getD s.maxNewTokens }

/-- The settings that count.  A file that is named has to be readable; the user's own does
not. -/
def Overrides.settings (o : Overrides) (fileAt : String → FileState) (own : FileState) :
    Except StorageError SessionSettings :=
  match o.config with
  | some path =>
    match SessionSettings.ofFile (fileAt path) with
    | .ok s => .ok (o.apply s).validate
    | .error e => .error e
  | none => .ok (o.apply (SessionSettings.ofFileOrDefault own)).validate

/-- The settings of a command.  A benchmark needs as many sequences as it continues at once;
their number is kept in a 32-bit word. -/
def Command.settings (c : Command) (s : SessionSettings) : SessionSettings :=
  match c with
  | .bench _ shape =>
    { s with maxSequences := max s.maxSequences (UInt32.ofNat shape.sequences) }
  | _ => s

/-- How the program ended, and what it printed. -/
structure Result (E : Engine) where
  /-- The exit code. -/
  code : UInt32
  /-- What was printed, in its order. -/
  outputs : List Output
  /-- What the engine remembers at the end, if it was started. -/
  world : Option E.World

/-- The end of a program that failed. -/
def Result.failure {E : Engine} (outputs : List Output) (message : String)
    (world : Option E.World) : Result E where
  code := 1
  outputs := outputs ++ [errorLine message]
  world := world

/-- The end of a program that did what it was asked to. -/
def Result.success {E : Engine} (outputs : List Output) (worker : Worker E) : Result E where
  code := 0
  outputs := outputs
  world := some worker.session.world

/-- The line that greets the user of a chat. -/
def greeting (m : ModelSummary) : Output :=
  .err ("Loaded " ++ m.description ++ " (" ++ twoPlaces (billions m.paramCount) ++
    "B params). Type /quit to exit.\n")

/-- Loads the model of a chat, greets the user and begins the conversation. -/
def openChat {E : Engine} (model : String) (settings : SessionSettings) (worker : Worker E) :
    Except SessionError Output × Chat E :=
  let conversation := Conversation.ofSystemPrompt settings.systemPrompt
  match worker.loadModel model with
  | (.error e, worker) => (.error e, { worker, conversation })
  | (.ok summary, worker) => (.ok (greeting summary), { worker, conversation })

/-- A chat from its greeting to its end. -/
def executeChat {E : Engine} (model : String) (settings : SessionSettings) (input : List UInt8)
    (worker : Worker E) : Result E :=
  match openChat model settings worker with
  | (.error e, chat) => .failure [] e.message (some chat.worker.session.world)
  | (.ok greeting, chat) =>
    match chat.run (linesOfBytes input) with
    | (outputs, none, chat) => .success (greeting :: outputs) chat.worker
    | (outputs, some message, chat) =>
      .failure (greeting :: outputs) message (some chat.worker.session.world)

/-- A benchmark, with its report. -/
def executeBench {E : Engine} (model : String) (shape : BenchShape) (worker : Worker E) :
    Result E :=
  match worker.loadModel model with
  | (.error e, worker) => .failure [] e.message (some worker.session.world)
  | (.ok _, worker) =>
    match worker.benchmark shape with
    | (.error e, worker) => .failure [] e.message (some worker.session.world)
    | (.ok report, worker) => .success [.out report.text] worker

/-- What a command does once its worker has been started. -/
def Command.execute {E : Engine} (c : Command) (settings : SessionSettings)
    (input : List UInt8) (worker : Worker E) : Result E :=
  match c with
  | .info => .success [.out (worker.systemInfo ++ "\n")] worker
  | .bench model shape => executeBench model shape worker
  | .chat model => executeChat model settings input worker

/-- The settings of a command and its worker.  The engine is started only when the settings
are known, and it may fail to start. -/
def Invocation.start {E : Engine} (i : Invocation) (fileAt : String → FileState)
    (own : FileState) (start : Except SessionError E.World) :
    Except String (SessionSettings × Worker E) :=
  match i.overrides.settings fileAt own with
  | .error e => .error e.message
  | .ok settings =>
    let settings := i.command.settings settings
    match start with
    | .error e => .error e.message
    | .ok world => .ok (settings, .start world settings.sessionOptions settings.turnDefaults)

/-- What is done with a command and its settings. -/
def Invocation.execute {E : Engine} (i : Invocation) (fileAt : String → FileState)
    (own : FileState) (start : Except SessionError E.World) (input : List UInt8) : Result E :=
  match i.start fileAt own start with
  | .error message => .failure [] message none
  | .ok (settings, worker) => i.command.execute settings input worker

/-- The exit code for a command line that is not as it has to be. -/
def mistakeCode : UInt32 := 2

/-- The whole program. -/
def execute {E : Engine} (args : List String) (fileAt : String → FileState) (own : FileState)
    (start : Except SessionError E.World) (input : List UInt8) : Result E :=
  match Request.ofArguments args with
  | .version => { code := 0, outputs := [.out versionText], world := none }
  | .help command => { code := 0, outputs := [.out (helpText command)], world := none }
  | .mistake =>
    { code := mistakeCode
      outputs := [.err ("error: the arguments are not understood\n\n" ++ helpText none)]
      world := none }
  | .run invocation => invocation.execute fileAt own start input

end Cli
end LlmSession
