/-!
# Speeds and their spread

The speeds of the runs that went well, in tokens per second, with their mean and their sample
standard deviation.  Sums run in the order of the samples.  They begin with the negative
zero, which is the neutral number of the addition of doubles: it leaves every number as it
is, the negative zero included.
-/

namespace LlmSession

/-- The speeds of the runs that went well, oldest first. -/
structure SpeedSamples where
  /-- The speeds, in tokens per second. -/
  speeds : List Float := []

namespace SpeedSamples

/-- The sum of some numbers, in their order. -/
def sum (xs : List Float) : Float := xs.foldl (· + ·) (-0.0)

/-- Adds the speed of one more run. -/
def push (s : SpeedSamples) (speed : Float) : SpeedSamples := ⟨s.speeds ++ [speed]⟩

/-- The mean, and zero without samples. -/
def mean (s : SpeedSamples) : Float :=
  if s.speeds.isEmpty then 0.0 else sum s.speeds / Float.ofNat s.speeds.length

/-- The sample standard deviation, from the deviations about the mean; one sample has
none. -/
def stdDev (s : SpeedSamples) : Float :=
  if s.speeds.length < 2 then 0.0
  else
    let mean := s.mean
    let squares := s.speeds.map fun x => (x - mean) * (x - mean)
    (sum squares / Float.ofNat (s.speeds.length - 1)).sqrt

end SpeedSamples

/-- The least time that is measured, in seconds; a clock that did not move is taken to have
moved by that. -/
def leastSeconds : Float := Float.ofScientific 2220446049250313 true 31

/-- The seconds between two readings of a clock in nanoseconds. -/
def secondsBetween (start stop : Nat) : Float :=
  let seconds := Float.ofNat (stop - start) / 1e9
  if seconds < leastSeconds then leastSeconds else seconds

/-- The speed of so many tokens in the time between two readings of a clock. -/
def speedBetween (tokens start stop : Nat) : Float :=
  Float.ofNat tokens / secondsBetween start stop

end LlmSession
