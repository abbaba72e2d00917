import LlmSession.Bench.Report
import LlmSession.Power
import LlmSession.Settings.Basic

/-!
# The command line

A command line is a command with its options.  Some options belong to every command and may
stand in front of it or after it; where they stand in both places, the one after it counts.
An option takes a value, which follows it or is attached to it.  What follows is never taken
for a value if it looks like an option itself.

Arguments are looked at from left to right, and the first that decides the outcome decides
it: a mistake, or a request for help or for the version.  A value that follows its option is
looked at when the next argument is, or after the arguments of a command if one follows.
Only when all are read are the options missed that a command cannot do without.

## Main definitions

* `Word`: how a single argument is built.
* `Level.scan`: the arguments in front of a command, or those after it.
* `Request.ofArguments`: the whole command line.
-/

namespace LlmSession
namespace Cli

/-! ## Words -/

/-- How an argument is built. -/
inductive Word where
  /-- The two dashes after which there are no options. -/
  | separator
  /-- An option by its name, perhaps with its value. -/
  | long (name : List Char) (value : Option (List Char))
  /-- An option by its letter, with what is attached to it. -/
  | short (letter : Char) (attached : List Char)
  /-- Anything else. -/
  | plain
  deriving DecidableEq, Repr

/-- A name up to an equals sign, and the value behind it. -/
def splitValue (cs : List Char) : List Char × Option (List Char) :=
  (cs.takeWhile (· ≠ '='), (cs.dropWhile (· ≠ '=')).tail?)

/-- How an argument is built; a single dash is nothing special. -/
def Word.ofChars : List Char → Word
  | ['-', '-'] => .separator
  | '-' :: '-' :: cs => .long (splitValue cs).1 (splitValue cs).2
  | '-' :: letter :: cs => .short letter cs
  | _ => .plain

/-! ## Values -/

/-- The digits of a number, less a sign in front of them. -/
def unsignedPart? : List Char → Option (List Char)
  | [] => none
  | cs => if cs.all Char.isDigit then some cs else none

/-- What an option takes. -/
inductive ValueKind where
  /-- A path, which is not empty. -/
  | path
  /-- An integer that fits an unsigned 32-bit word; it may have either sign. -/
  | word32
  /-- A natural number that fits an unsigned 64-bit word; it may have a plus. -/
  | word64
  deriving DecidableEq, Repr

/-- A natural number below a bound; a plus in front is allowed, and a minus in front of zero
if asked for. -/
def natBelow? (bound : Nat) (minusZero : Bool) (value : String) : Option Nat :=
  let (negative, digits) := match value.toList with
    | '+' :: cs => (false, cs)
    | '-' :: cs => (true, cs)
    | cs => (false, cs)
  match unsignedPart? digits with
  | none => none
  | some digits =>
    let n := Nat.ofDigitChars 10 digits 0
    if bound ≤ n then none
    else if negative then (if minusZero && n == 0 then some 0 else none)
    else some n

/-- The unsigned 32-bit word of a value. -/
def word32? (value : String) : Option UInt32 := (natBelow? (twoTo 32) true value).map UInt32.ofNat

/-- The unsigned 64-bit word of a value. -/
def word64? (value : String) : Option UInt64 := (natBelow? (twoTo 64) false value).map UInt64.ofNat

/-- Whether a value is one that an option takes. -/
def ValueKind.accepts (kind : ValueKind) (value : String) : Bool :=
  match kind with
  | .path => value != ""
  | .word32 => (word32? value).isSome
  | .word64 => (word64? value).isSome

/-! ## Levels -/

/-- An option that takes a value. -/
structure OptionSpec where
  /-- Its name. -/
  name : String
  /-- Its letter, if it has one. -/
  letter : Option Char := none
  /-- What it takes. -/
  kind : ValueKind
  deriving DecidableEq, Repr

/-- What may stand in one part of a command line: in front of the command, or after it. -/
structure Level where
  /-- The options. -/
  options : List OptionSpec
  /-- The commands. -/
  commands : List String := []
  /-- Whether the version may be asked for. -/
  tellsVersion : Bool := false

/-- Options by their names, with their values. -/
abbrev Given := List (String × String)

/-- What one part of a command line comes to. -/
inductive Scan where
  /-- It goes to the end. -/
  | ended (given : Given)
  /-- It ends at a command, which has further arguments.  Nothing is given if the last value
  is one that its option does not take. -/
  | command (given : Option Given) (name : String) (rest : List String)
  /-- Help is asked for. -/
  | help
  /-- The version is asked for. -/
  | version
  /-- It is not as it has to be. -/
  | mistake
  deriving DecidableEq, Repr

/-- What a single argument asks for. -/
inductive Demand where
  /-- An option is given with its value. -/
  | give (option : OptionSpec) (value : String)
  /-- An option is given whose value is to follow. -/
  | await (option : OptionSpec)
  /-- The arguments come to something here. -/
  | stop (result : Scan)
  /-- The argument has no dashes. -/
  | plain
  /-- There are no options from here on. -/
  | separator

namespace Level

/-- What an option with a value of its own, or none, asks for. -/
def demandOf (option : Option OptionSpec) (value : Option (List Char)) : Demand :=
  match option, value with
  | some option, some value => .give option (String.ofList value)
  | some option, none => .await option
  | none, _ => .stop .mistake

/-- What is attached to the letter of an option. -/
def attachedValue : List Char → Option (List Char)
  | [] => none
  | '=' :: value => some value
  | value => some value

/-- What an argument asks for. -/
def demand (l : Level) (arg : String) : Demand :=
  match Word.ofChars arg.toList with
  | .separator => .separator
  | .plain => .plain
  | .long name value =>
    if name = "help".toList then .stop (if value = none then .help else .mistake)
    else if name = "version".toList ∧ l.tellsVersion then
      .stop (if value = none then .version else .mistake)
    else demandOf (l.options.find? fun o => o.name.toList = name) value
  | .short letter attached =>
    if letter = 'h' then .stop .help
    else if letter = 'V' ∧ l.tellsVersion then .stop .version
    else demandOf (l.options.find? fun o => o.letter = some letter) (attachedValue attached)

/-- The options with one more, which may not be given twice and has to take its value. -/
def give? (given : Given) (option : OptionSpec) (value : String) : Option Given :=
  if option.name ∈ given.map Prod.fst then none
  else if option.kind.accepts value then some (given ++ [(option.name, value)])
  else none

/-- Whether an argument is never taken for a value. -/
def looksLikeOption (arg : String) : Bool := Word.ofChars arg.toList != .plain

/-- Looks at the arguments of one part of a command line. -/
def scan (l : Level) (given : Given) : List String → Scan
  | [] => .ended given
  | arg :: rest =>
    match l.demand arg with
    | .stop result => result
    | .separator => if rest.isEmpty then .ended given else .mistake
    | .plain => if arg ∈ l.commands then .command (some given) arg rest else .mistake
    | .give option value =>
      match give? given option value with
      | some given => scan l given rest
      | none => .mistake
    | .await option =>
      match rest with
      | [] => .mistake
      | value :: rest =>
        if looksLikeOption value then .mistake
        else
          match give? given option value, rest with
          | some given, rest => scan l given rest
          | none, name :: rest =>
            if name ∈ l.commands then .command none name rest else .mistake
          | none, [] => .mistake

end Level

/-! ## Commands -/

/-- What is to be done. -/
inductive Command where
  /-- A chat with a model. -/
  | chat (model : String)
  /-- A benchmark of a model. -/
  | bench (model : String) (shape : BenchShape)
  /-- What the engine tells about itself. -/
  | info
  deriving DecidableEq, Repr

/-- The settings that a command line changes. -/
structure Overrides where
  /-- The settings file, if not the user's own. -/
  config : Option String := none
  /-- The threads. -/
  threads : Option UInt32 := none
  /-- The places in the cache. -/
  contextSize : Option UInt32 := none
  /-- The greatest number of new tokens. -/
  maxTokens : Option UInt64 := none
  deriving DecidableEq, Repr

/-- A command with the settings that go with it. -/
structure Invocation where
  /-- The changed settings. -/
  overrides : Overrides
  /-- The command. -/
  command : Command
  deriving DecidableEq, Repr

/-- What a command line asks for. -/
inductive Request where
  /-- To do something. -/
  | run (invocation : Invocation)
  /-- To tell the version. -/
  | version
  /-- To explain a command, or all of them. -/
  | help (command : Option String)
  /-- Nothing that can be done. -/
  | mistake
  deriving DecidableEq, Repr

/-- The options of every command. -/
def sharedOptions : List OptionSpec :=
  [{ name := "config", kind := .path }, { name := "threads", kind := .word32 },
   { name := "ctx-size", kind := .word32 }, { name := "max-tokens", kind := .word64 }]

/-- The model that a command works with. -/
def modelOption : OptionSpec := { name := "model", letter := some 'm', kind := .path }

/-- The options that give the shape of a benchmark. -/
def shapeOptions : List OptionSpec :=
  ["pp", "tg", "pl", "nr"].map fun name => { name, kind := .word64 }

/-- The part in front of the command. -/
def frontLevel : Level where
  options := sharedOptions
  commands := ["chat", "bench", "info", "help"]
  tellsVersion := true

/-- The part after a command. -/
def commandLevel (name : String) : Level where
  options := sharedOptions ++
    (if name = "chat" then [modelOption]
     else if name = "bench" then modelOption :: shapeOptions
     else [])

/-- The changed settings; an option after the command counts for more than one in front. -/
def Overrides.ofGiven (front after : Given) : Overrides :=
  let value (name : String) : Option String := after.lookup name <|> front.lookup name
  { config := value "config"
    threads := (value "threads").bind word32?
    contextSize := (value "ctx-size").bind word32?
    maxTokens := (value "max-tokens").bind word64? }

/-- The shape of a benchmark. -/
def shapeOfGiven (given : Given) : BenchShape :=
  let size (name : String) (absent : Nat) : Nat :=
    (((given.lookup name).bind word64?).map UInt64.toNat).getD absent
  let usual : BenchShape := {}
  { promptTokens := size "pp" usual.promptTokens
    generationSteps := size "tg" usual.generationSteps
    sequences := size "pl" usual.sequences
    runs := size "nr" usual.runs }

/-- A command with its options, unless it lacks one. -/
def Command.ofGiven? (name : String) (given : Given) : Option Command :=
  if name = "info" then some .info
  else
    match given.lookup "model" with
    | none => none
    | some model =>
      if name = "chat" then some (.chat model) else some (.bench model (shapeOfGiven given))

/-- The help that some words ask for. -/
def Request.helpFor : List String → Request
  | [] => .help none
  | [name] => if name ∈ frontLevel.commands then .help (some name) else .mistake
  | _ => .mistake

/-- What a command line asks for. -/
def Request.ofArguments (args : List String) : Request :=
  match frontLevel.scan [] args with
  | .help => .help none
  | .version => .version
  | .mistake => .mistake
  | .ended _ => .mistake
  | .command front name rest =>
    if name = "help" then .helpFor rest
    else
      match (commandLevel name).scan [] rest with
      | .help => .help (some name)
      | .ended after =>
        match front, Command.ofGiven? name after with
        | some front, some command => .run { overrides := .ofGiven front after, command }
        | _, _ => .mistake
      | .version | .mistake | .command _ _ _ => .mistake

end Cli
end LlmSession
