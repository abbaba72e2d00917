import LlmSession.Bench.Speed
import LlmSession.Decimal.Fixed
import LlmSession.Engine.Config

/-!
# The report of a benchmark

What a benchmark is asked to do, what it found, and the table that shows it: one row for the
processing of prompts, one for the generation of tokens, and a line on the runs that failed,
if there are any.
-/

namespace LlmSession

/-- What one benchmark is to measure. -/
structure BenchShape where
  /-- The tokens of the prompt. -/
  promptTokens : Nat := 512
  /-- The steps of the generation. -/
  generationSteps : Nat := 128
  /-- The sequences that each step continues. -/
  sequences : Nat := 1
  /-- How often it is all done. -/
  runs : Nat := 3
  deriving DecidableEq, Repr

/-- The shape in an error. -/
def BenchShape.describe (s : BenchShape) : String :=
  "BenchParams \x7b pp: " ++ toString s.promptTokens ++ ", tg: " ++ toString s.generationSteps ++
    ", pl: " ++ toString s.sequences ++ ", nr: " ++ toString s.runs ++ " \x7d"

/-- What a benchmark found. -/
structure BenchReport where
  /-- What it was to measure. -/
  shape : BenchShape
  /-- The model. -/
  model : ModelSummary
  /-- The name of the engine. -/
  engine : String
  /-- The mean speed of the prompts. -/
  promptMean : Float
  /-- The spread of that speed. -/
  promptStdDev : Float
  /-- The mean speed of the generation. -/
  generationMean : Float
  /-- The spread of that speed. -/
  generationStdDev : Float
  /-- The runs that failed, which the speeds leave out. -/
  failedRuns : Nat

/-- A number in a report: two places after the point. -/
def twoPlaces (x : Float) : String := Decimal.fixed 2 x

/-- A count of parameters, in billions. -/
def billions (count : UInt64) : Float := count.toFloat / 1e9

/-- A number of bytes, in units of `2 ^ 30`. -/
def gibibytes (bytes : UInt64) : Float := bytes.toFloat / 1024.0 / 1024.0 / 1024.0

namespace BenchReport

/-- The cells of a row that tell which model ran on which engine. -/
def modelCells (r : BenchReport) : String :=
  "| " ++ r.model.description ++ " | " ++ twoPlaces (gibibytes r.model.sizeBytes) ++ "GiB | " ++
    twoPlaces (billions r.model.paramCount) ++ "B | " ++ r.engine ++ " |"

/-- One row of the table. -/
def row (r : BenchReport) (test : String) (size : Nat) (mean stdDev : Float) : String :=
  r.modelCells ++ " " ++ test ++ " " ++ toString size ++ " | " ++ twoPlaces mean ++ " ± " ++
    twoPlaces stdDev ++ " |\n"

/-- The report as text. -/
def text (r : BenchReport) : String :=
  "| model | size | params | backend | test | t/s |\n" ++
  "| --- | --- | --- | --- | --- | --- |\n" ++
  r.row "pp" r.shape.promptTokens r.promptMean r.promptStdDev ++
  r.row "tg" r.shape.generationSteps r.generationMean r.generationStdDev ++
  if r.failedRuns = 0 then ""
  else "\n" ++ toString r.failedRuns ++ " of " ++ toString r.shape.runs ++
    " runs failed and are not included\n"

end BenchReport
end LlmSession
