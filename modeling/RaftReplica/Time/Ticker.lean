import RaftReplica.Pipe
import RaftReplica.Time.Interval
import RaftReplica.Time.Tick

/-!
# Tickers

A ticker puts a tick on its stream every time a delay has passed without an interrupt. The stream has
room for one tick; a further one is dropped, not queued. An interrupt starts the wait over with a
fresh delay.

The ticker's task acts only when it is polled, and what happens in between it sees all at once: first
whether it was stopped, then the interrupts, one by one, then whether the wait is over. All times are
nanoseconds on the ticker's clock.
-/

namespace RaftReplica

/-- A ticker with its task and the stream of its ticks. -/
structure Ticker (δ : Type) where
  delays : δ
  /-- When the current wait is over. -/
  deadline : Nat
  /-- The interrupts that the task has not seen yet. -/
  interrupts : Nat
  /-- Whether the task has been told to stop. -/
  stopping : Bool
  /-- Whether the task has seen that. -/
  ended : Bool
  /-- Whether a tick waits on the stream. -/
  waiting : Bool

namespace Ticker

variable {δ : Type} [DelaySource δ]

/-- Starts a wait at `now` with the next delay. Deadlines have no upper end here; a clock that has a last time
fails to start a wait that goes beyond it. Of an interval's delays only fixed ones can be so long, as all
others are below 600 years. -/
def rearm (ticker : Ticker δ) (now : Nat) : Ticker δ :=
  let (delay, delays) := DelaySource.delay ticker.delays
  { ticker with delays, deadline := now + delay.nanoseconds }

/-- A ticker whose first wait starts at `now`. -/
def start (delays : δ) (now : Nat) : Ticker δ :=
  rearm ⟨delays, now, 0, false, false, false⟩ now

omit [DelaySource δ] in
/-- Asks for the wait to start over. -/
def interrupt (ticker : Ticker δ) : Ticker δ :=
  { ticker with interrupts := ticker.interrupts + 1 }

omit [DelaySource δ] in
def stop (ticker : Ticker δ) : Ticker δ := { ticker with stopping := true }

/-- Sees the interrupts sent so far, each of which starts the wait over. -/
def observeInterrupts (ticker : Ticker δ) (now : Nat) : Ticker δ :=
  { Nat.repeat (fun t : Ticker δ => t.rearm now) ticker.interrupts ticker with interrupts := 0 }

/-- Sees whether the wait is over, and then ticks and starts the next. -/
def observeExpiry (ticker : Ticker δ) (now : Nat) : Ticker δ :=
  if ticker.deadline ≤ now then { ticker.rearm now with waiting := true } else ticker

/-- Lets the task run until it waits. -/
def poll (ticker : Ticker δ) (now : Nat) : Ticker δ :=
  if ticker.ended then ticker
  else if ticker.stopping then { ticker with ended := true }
  else (ticker.observeInterrupts now).observeExpiry now

omit [DelaySource δ] in
/-- Takes the tick that waits on the stream. -/
def receive (ticker : Ticker δ) : Received Unit × Ticker δ :=
  if ticker.waiting then (.item (), { ticker with waiting := false })
  else (if ticker.ended then .closed else .pending, ticker)

end Ticker

end RaftReplica
