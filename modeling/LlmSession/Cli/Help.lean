import LlmSession.Cli.Arguments

/-!
# What the program tells about itself

The version, and for every command how it is called.
-/

namespace LlmSession
namespace Cli

/-- The name of the program. -/
def programName : String := "localm-bridge"

/-- The answer to the question for the version. -/
def versionText : String := programName ++ " 0.3.0\n"

/-- Lines as text. -/
def lines (ls : List String) : String := String.join (ls.map (· ++ "\n"))

/-- The lines on the options of every command. -/
def sharedHelp : List String :=
  ["      --config <CONFIG>          Settings file (defaults to settings.json in the data directory)",
   "      --threads <THREADS>        Decode threads",
   "      --ctx-size <CTX_SIZE>      KV cache size in tokens",
   "      --max-tokens <MAX_TOKENS>  Ceiling on tokens per reply"]

/-- The line on the question for help. -/
def helpLine : String := "  -h, --help                     Print help"

/-- The line on the model. -/
def modelLine : String := "  -m, --model <MODEL>            Path to a .gguf model"

/-- How the program, or one of its commands, is called. -/
def helpText (command : Option String) : String :=
  match command with
  | some "chat" => lines (
      ["Interactive chat on stdin. `/reset` clears the history, `/quit` exits", "",
       "Usage: " ++ programName ++ " chat [OPTIONS] --model <MODEL>", "", "Options:", modelLine] ++
      sharedHelp ++ [helpLine])
  | some "bench" => lines (
      ["Measure prompt processing and generation speed", "",
       "Usage: " ++ programName ++ " bench [OPTIONS] --model <MODEL>", "", "Options:",
       "  -m, --model <MODEL>            "] ++
      sharedHelp ++
      ["      --pp <PP>                  Prompt tokens per pass [default: 512]",
       "      --tg <TG>                  Generation steps per pass [default: 128]",
       "      --pl <PL>                  Parallel sequences [default: 1]",
       "      --nr <NR>                  Repetitions [default: 3]", helpLine])
  | some "info" => lines (
      ["Print engine and hardware details", "",
       "Usage: " ++ programName ++ " info [OPTIONS]", "", "Options:"] ++ sharedHelp ++ [helpLine])
  | some _ => lines
      ["Print this message or the help of the given subcommand(s)", "",
       "Usage: " ++ programName ++ " help [COMMAND]...", "", "Arguments:",
       "  [COMMAND]...  Print help for the subcommand(s)"]
  | none => lines (
      ["Chat with or benchmark a local GGUF model", "",
       "Usage: " ++ programName ++ " [OPTIONS] <COMMAND>", "", "Commands:",
       "  chat   Interactive chat on stdin. `/reset` clears the history, `/quit` exits",
       "  bench  Measure prompt processing and generation speed",
       "  info   Print engine and hardware details",
       "  help   Print this message or the help of the given subcommand(s)", "", "Options:"] ++
      sharedHelp ++ [helpLine, "  -V, --version                  Print version"])

end Cli
end LlmSession
