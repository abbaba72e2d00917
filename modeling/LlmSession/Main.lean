import LlmSession.Cli.Program
import LlmSession.Engine.Scripted

/-!
# The command

Reads the command line, the settings files and the lines of a chat, and prints what comes of
them.  The engine is the scripted one with an empty script, whose replies are over as soon as
they begin.
-/

namespace LlmSession
namespace Cli

/-- Prints one output after the other. -/
def printOutputs (outputs : List Output) : IO Unit := do
  for output in outputs do
    match output with
    | .out text => IO.print text
    | .err text => IO.eprint text
  (← IO.getStdout).flush

/-- What is found at a path. -/
def readFileState (path : String) : IO FileState := do
  try
    let content ← IO.FS.readBinFile path
    return .file content.toList
  catch e =>
    match e with
    | .noFileOrDirectory _ _ _ => return .missing
    | _ => return .directory

/-- What is found at the path of the user's own settings. -/
def readOwnSettings : IO FileState := do
  let home := homeDirectory? (← IO.getEnv "HOME") none
  match settingsPath? home (← IO.getEnv "XDG_DATA_HOME") with
  | .ok path => readFileState path
  | .error _ => return .missing

/-- Reads and answers one line after the other. -/
partial def chatLoop {E : Engine} (chat : Chat E) : IO UInt32 := do
  printOutputs [Chat.promptOutput]
  let line ← (← IO.getStdin).getLine
  if line.isEmpty then return 0
  let (outputs, step) := chat.line line
  printOutputs outputs
  match step with
  | .goOn chat => chatLoop chat
  | .quit _ => return 0
  | .failed _ message =>
    printOutputs [errorLine message]
    return 1

/-- Runs a command; a chat is read line by line. -/
def runInvocation (i : Invocation) : IO UInt32 := do
  let config ← match i.overrides.config with
    | some path => readFileState path
    | none => pure .missing
  let own ← readOwnSettings
  let engine := ({} : Script).engine
  let world : Except SessionError engine.World := .ok ({} : Script.World)
  match i.command, i.start (fun _ => config) own world with
  | .chat model, .ok (settings, worker) =>
    match openChat model settings worker with
    | (.ok greeting, chat) =>
      printOutputs [greeting]
      chatLoop chat
    | (.error e, _) =>
      printOutputs [errorLine e.message]
      return 1
  | _, _ =>
    let result := i.execute (fun _ => config) own world []
    printOutputs result.outputs
    return result.code

end Cli
end LlmSession

/-- The program. -/
def main (args : List String) : IO UInt32 := do
  match LlmSession.Cli.Request.ofArguments args with
  | .run invocation => LlmSession.Cli.runInvocation invocation
  | _ =>
    let engine := ({} : LlmSession.Script).engine
    let result : LlmSession.Cli.Result engine :=
      LlmSession.Cli.execute args (fun _ => .missing) .missing (.error (.worker "")) []
    LlmSession.Cli.printOutputs result.outputs
    return result.code
