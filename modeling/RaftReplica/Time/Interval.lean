import RaftReplica.Failure
import RaftReplica.Random.Normal
import RaftReplica.Random.Uniform
import RaftReplica.Time.Duration

/-!
# Intervals

An interval yields one delay after another: always the same, spread evenly over a range, or spread
normally around a mean. It owns its source of random words, so that a copy of an interval yields the
same delays as the interval itself, and a source put in its place starts a sequence of its own.
-/

namespace RaftReplica

/-- Why an interval cannot be built. -/
inductive IntervalError where
  | nonPositiveDelay
  | invalidScalingFactor
  | nonPositiveDeviation
deriving DecidableEq, Repr

def IntervalError.message : IntervalError → String
  | nonPositiveDelay => "non-positive or zero interval for delay"
  | invalidScalingFactor => "scaling factor must be 0 < f <= 1.0"
  | nonPositiveDeviation => "non-positive or zero value for standard deviation"

def IntervalError.kind : IntervalError → String
  | nonPositiveDelay => "NonPositiveDelay"
  | invalidScalingFactor => "InvalidScalingFactor"
  | nonPositiveDeviation => "NonPositiveDeviation"

instance : Failure IntervalError := ⟨IntervalError.kind, IntervalError.message⟩

/-- How an interval chooses its delays. -/
inductive Strategy where
  | fixed (delay : Duration)
  /-- Evenly spread over the nanoseconds from `min` up to but not including `max`. -/
  | uniform (min max : Nat)
  /-- Normally spread, in nanoseconds. -/
  | normal (mean deviation : Float)

/-- A stream of delays. -/
class DelaySource (δ : Type) where
  delay : δ → Duration × δ

/-- A strategy together with the random words that it draws on. -/
structure Interval (σ : Type) where
  strategy : Strategy
  source : σ

namespace Interval

variable {σ : Type}

/-- The whole numbers of nanoseconds around `n * (1 - factor)` and `n * (1 + factor)`, rounded
outwards. -/
def scaleBounds (n : Nat) (factor : Float) : Nat × Nat :=
  let n := n.toUInt64.toFloat
  (Binary64.floorWord (n * (1 - factor)), Binary64.ceilWord (n * (1 + factor)))

/-- Always the same delay. -/
def fixed (delay : Duration) (source : σ) : Interval σ := ⟨.fixed delay, source⟩

/-- Evenly spread from `min` up to but not including `max`; always `min` if that leaves nothing. -/
def uniform (min max : Duration) (source : σ) : Interval σ :=
  ⟨.uniform min.nanosecondsClamped max.nanosecondsClamped, source⟩

/-- Evenly spread within a factor of `delay` to either side. -/
def jitter (delay : Duration) (factor : Float) (source : σ) : Except IntervalError (Interval σ) :=
  if delay = Duration.zero then .error .nonPositiveDelay
  else if 0 < factor ∧ factor ≤ 1 then
    let (min, max) := scaleBounds delay.nanosecondsClamped factor
    .ok ⟨.uniform min max, source⟩
  else .error .invalidScalingFactor

/-- Normally spread around `mean`, without the delays below the first whole nanosecond. -/
def normal (mean deviation : Duration) (source : σ) : Except IntervalError (Interval σ) :=
  if mean = Duration.zero then .error .nonPositiveDelay
  else if deviation = Duration.zero then .error .nonPositiveDeviation
  else .ok ⟨.normal mean.nanosecondsClamped.toUInt64.toFloat
    deviation.nanosecondsClamped.toUInt64.toFloat, source⟩

/-- The same strategy on another source. -/
def withSource (interval : Interval σ) (source : σ) : Interval σ := { interval with source }

/-- How many normal samples are drawn for one delay. -/
def maxNormalAttempts : Nat := 4

variable [WordSource σ]

/-- Draws up to that many normal samples for one that rounds to a positive number of nanoseconds,
and takes the mean if there is none. -/
def normalNanoseconds : Nat → Float → Float → σ → Nat × σ
  | 0, mean, _, source => (Binary64.floorWord mean, source)
  | attempts + 1, mean, deviation, source =>
    let (z, source) := Normal.draw source
    let sample := Binary64.nearestWord (z * deviation + mean)
    if 0 < sample then (sample, source)
    else normalNanoseconds attempts mean deviation source

/-- The next delay and the interval after it. -/
def delay (interval : Interval σ) : Duration × Interval σ :=
  match interval.strategy with
  | .fixed delay => (delay, interval)
  | .uniform min max =>
    if max ≤ min then (Duration.ofNanoseconds min, interval)
    else
      let (offset, source) := Uniform.draw (max - min) interval.source
      (Duration.ofNanoseconds (min + offset), { interval with source })
  | .normal mean deviation =>
    let (n, source) := normalNanoseconds maxNormalAttempts mean deviation interval.source
    (Duration.ofNanoseconds n, { interval with source })

/-- The next `count` delays and the interval after them. -/
def delays : Nat → Interval σ → List Duration × Interval σ
  | 0, interval => ([], interval)
  | count + 1, interval =>
    let (first, interval) := interval.delay
    let (rest, interval) := delays count interval
    (first :: rest, interval)

instance : DelaySource (Interval σ) := ⟨delay⟩

end Interval

end RaftReplica
