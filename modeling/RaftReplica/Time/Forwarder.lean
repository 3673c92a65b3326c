import RaftReplica.Event.Basic
import RaftReplica.Time.Ticker

/-!
# Forwarding ticks

A forwarder moves the ticks of a ticker into an event pipe, as timeouts. It holds the pipe only
weakly, except while it waits for room with a tick in hand. It ends with the ticker's stream, and as
soon as the pipe takes nothing more.
-/

namespace RaftReplica

/-- What a forwarder is doing. -/
inductive Forwarder where
  /-- It waits for a tick. -/
  | idle
  /-- It has a tick and waits for room. -/
  | holding
  | done
deriving DecidableEq, Repr

namespace Forwarder

variable {δ : Type}

/-- Tries to put the tick in hand into the pipe, as a sender that keeps the pipe open. -/
def putDown (tick : Tick) (pipe : Pipe Event) : Forwarder × Pipe Event :=
  match pipe.trySend (Event.ofTick tick) with
  | .ok pipe => (idle, pipe.dropSender)
  | .error .full => (holding, pipe)
  | .error .closed => (done, pipe.dropSender)

/-- Takes a tick off the ticker's stream and tries to put it into the pipe. -/
def pickUp (tick : Tick) (ticker : Ticker δ) (pipe : Pipe Event) :
    Forwarder × Ticker δ × Pipe Event :=
  match ticker.receive with
  | (.pending, ticker) => (idle, ticker, pipe)
  | (.closed, ticker) => (done, ticker, pipe)
  | (.item (), ticker) =>
    match pipe.upgrade? with
    | none => (done, ticker, pipe)
    | some pipe =>
      let (forwarder, pipe) := putDown tick pipe
      (forwarder, ticker, pipe)

/-- Lets the forwarder run until it waits. The stream has room for one tick, so that two ticks are
the most that go by. -/
def poll (forwarder : Forwarder) (tick : Tick) (ticker : Ticker δ) (pipe : Pipe Event) :
    Forwarder × Ticker δ × Pipe Event :=
  let (forwarder, pipe) := match forwarder with
    | holding => putDown tick pipe
    | other => (other, pipe)
  match forwarder with
  | idle =>
    match pickUp tick ticker pipe with
    | (idle, ticker, pipe) => pickUp tick ticker pipe
    | stopped => stopped
  | other => (other, ticker, pipe)

end Forwarder

end RaftReplica
