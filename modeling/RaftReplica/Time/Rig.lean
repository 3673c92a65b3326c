import RaftReplica.Random.ChaCha
import RaftReplica.Time.Timer

/-!
# Trying out a ticker

A rig holds a ticker on a clock of its own, with whoever takes its ticks: a reader of its stream, or a
forwarder with the pipe that it feeds. Nothing in it runs until it is settled, so that several things
can be made to happen at once.
-/

namespace RaftReplica

/-- A ticker under trial. -/
structure TickerRig where
  tick : Tick
  ticker : Ticker (Interval ChaCha)
  /-- The forwarder with its pipe, if ticks go on. -/
  forward : Option (Forwarder × Pipe Event)
  now : Nat
  /-- Whether the ticker's handle is held. -/
  handle : Bool
  /-- Whether the pipe's own sender is held. -/
  sender : Bool

namespace TickerRig

def start (tick : Tick) (interval : Interval ChaCha) (pipe : Option (Pipe Event)) : TickerRig where
  tick := tick
  ticker := Ticker.start interval 0
  forward := pipe.map fun pipe => (.idle, pipe)
  now := 0
  handle := true
  sender := true

/-- Lets everything run until it waits. -/
def settle (rig : TickerRig) : TickerRig :=
  match rig.forward with
  | none => { rig with ticker := rig.ticker.poll rig.now }
  | some (forwarder, pipe) =>
    let (timer, pipe) := (Timer.mk rig.tick rig.ticker forwarder).settle rig.now pipe
    { rig with ticker := timer.ticker, forward := some (timer.forwarder, pipe) }

/-- Moves the clock on at once. -/
def jump (rig : TickerRig) (time : Nat) : TickerRig := { rig with now := rig.now + time }

/-- Moves the clock on to `target` from one wake to the next, through that many at most. What is due
at `target` itself is left to whoever settles the rig there. -/
def advanceWithin : (wakes : Nat) → (target : Nat) → TickerRig → TickerRig
  | 0, target, rig => { rig with now := target }
  | wakes + 1, target, rig =>
    let wake := Clock.wakeTime rig.ticker.deadline
    if rig.ticker.ended || target ≤ wake then { rig with now := target }
    else advanceWithin wakes target { rig with now := max wake rig.now }.settle

/-- Lets milliseconds pass on a clock that wakes the ticker whenever it is due. -/
def advance (rig : TickerRig) (milliseconds : Nat) : TickerRig :=
  advanceWithin (milliseconds + 1) (rig.now + milliseconds * Clock.millisecond) rig.settle

/-- Takes a tick as it comes out, as an event. -/
def receive (rig : TickerRig) : Received Event × TickerRig :=
  match rig.forward with
  | none =>
    match rig.ticker.receive with
    | (.item (), ticker) => (.item (Event.ofTick rig.tick), { rig with ticker })
    | (.pending, ticker) => (.pending, { rig with ticker })
    | (.closed, ticker) => (.closed, { rig with ticker })
  | some (forwarder, pipe) =>
    let (item, pipe) := pipe.receive
    (item, { rig with forward := some (forwarder, pipe) })

/-- Takes a tick that is there or, if there is none, one that comes out once everything has run. -/
def take (rig : TickerRig) : Received Event × TickerRig :=
  match rig.receive with
  | (.pending, rig) => rig.settle.receive
  | received => received

/-- Does something to the pipe, if there is one. -/
def onPipe (rig : TickerRig) (change : Pipe Event → Pipe Event) : TickerRig :=
  { rig with forward := rig.forward.map fun (forwarder, pipe) => (forwarder, change pipe) }

/-- Starts the wait over, through the handle. -/
def interrupt (rig : TickerRig) : TickerRig :=
  if rig.handle then { rig with ticker := rig.ticker.interrupt } else rig

/-- Stops the ticker from outside. -/
def cancel (rig : TickerRig) : TickerRig := { rig with ticker := rig.ticker.stop }

/-- Gives the handle up, which stops the ticker. -/
def letGo (rig : TickerRig) : TickerRig :=
  if rig.handle then { rig.cancel with handle := false } else rig

/-- Gives the pipe's own sender up. -/
def dropSender (rig : TickerRig) : TickerRig :=
  if rig.sender then { rig.onPipe Pipe.dropSender with sender := false } else rig

end TickerRig

end RaftReplica
