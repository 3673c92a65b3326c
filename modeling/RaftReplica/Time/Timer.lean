import RaftReplica.Time.Clock
import RaftReplica.Time.Forwarder

/-!
# Timers

A timer is a ticker whose ticks are forwarded into an event pipe. Once its ticker has been stopped
and its last tick has gone by, nothing of it is left.
-/

namespace RaftReplica

/-- A ticker and the forwarder behind it. -/
structure Timer (δ : Type) where
  tick : Tick
  ticker : Ticker δ
  forwarder : Forwarder

namespace Timer

variable {δ : Type} [DelaySource δ]

/-- A timer whose first wait starts at `now`. -/
def start (tick : Tick) (delays : δ) (now : Nat) : Timer δ := ⟨tick, Ticker.start delays now, .idle⟩

/-- Lets the ticker and then the forwarder run until they wait. -/
def settle (timer : Timer δ) (now : Nat) (pipe : Pipe Event) : Timer δ × Pipe Event :=
  let ticker := timer.ticker.poll now
  let (forwarder, ticker, pipe) := timer.forwarder.poll timer.tick ticker pipe
  ({ timer with ticker, forwarder }, pipe)

omit [DelaySource δ] in
def interrupt (timer : Timer δ) : Timer δ := { timer with ticker := timer.ticker.interrupt }

omit [DelaySource δ] in
def stop (timer : Timer δ) : Timer δ := { timer with ticker := timer.ticker.stop }

omit [DelaySource δ] in
/-- Whether nothing more comes of it. -/
def isOver (timer : Timer δ) : Bool := timer.ticker.ended && timer.forwarder == .done

omit [DelaySource δ] in
/-- When it has to run again by itself, on a clock of whole milliseconds. -/
def wakeTime? (timer : Timer δ) : Option Nat :=
  if timer.ticker.ended then none else some (Clock.wakeTime timer.ticker.deadline)

end Timer

end RaftReplica
