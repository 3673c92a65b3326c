import RaftReplica.Event.Basic
import RaftReplica.Pipe
import RaftReplica.Status

/-!
# The service

A service is where the requests of other replicas arrive. It puts each as an event into the pipe of
its own replica and waits until the replica answers. A caller is refused if the pipe is closed, or if
the event is dropped without an answer.
-/

namespace RaftReplica

/-- A service with the pipe that it feeds. -/
structure Service where
  pipe : Pipe Event
  /-- The ticket of the next request. -/
  ticket : Ticket

/-- How a call of the service stands. -/
inductive ServiceCall where
  | refused (status : Status)
  /-- The event has to wait for room in the pipe. -/
  | blocked
  /-- The event is in the pipe. -/
  | queued
  | replied (reply : Reply)
deriving DecidableEq, Repr

/-- What whoever reads the pipe does about the next event. -/
inductive Treatment where
  /-- It is left in the pipe. -/
  | leave
  | drop
  /-- It is answered, if it is a request. -/
  | answer (reply : Reply)
deriving DecidableEq, Repr

namespace Service

/-- What callers of a service without a replica are told. -/
def notListening : Status := Status.unavailable "replica is not listening for events"

/-- What callers are told whose request was dropped. -/
def stoppedBeforeReplying : Status := Status.unavailable "replica stopped before replying"

/-- A service on a fresh pipe, unless the pipe would have no room. -/
def create? (capacity : Nat) : Option Service :=
  (Pipe.create? capacity).map fun pipe => ⟨pipe, 0⟩

/-- Puts an event of somebody else into the pipe, who takes tickets like a caller does. -/
def feed (s : Service) (event : Event) : Service × Bool :=
  let ticket := s.ticket + event.tickets.length
  match s.pipe.trySend event with
  | .ok pipe => (⟨pipe, ticket⟩, true)
  | .error _ => ({ s with ticket }, false)

/-- Calls the service. -/
def call (s : Service) (request : Request) : Service × ServiceCall :=
  match s.pipe.trySend (Event.ofRequest s.ticket request) with
  | .ok pipe => (⟨pipe, s.ticket + 1⟩, .queued)
  | .error .full => ({ s with ticket := s.ticket + 1 }, .blocked)
  | .error .closed => ({ s with ticket := s.ticket + 1 }, .refused notListening)

/-- Takes the next event from the pipe. A blocked event moves up. -/
def next (s : Service) (blocked : Option Event) : Service × Option Event :=
  let (event, pipe) := s.pipe.tryReceive
  let pipe := match blocked with
    | some waiting => (pipe.trySend waiting).toOption.getD pipe
    | none => pipe
  ({ s with pipe }, event)

/-- How a queued call stands once the next event has been treated. -/
def settled (own : Event) (taken : Option Event) (treatment : Treatment) : ServiceCall :=
  if taken = some own then
    match treatment with
    | .answer reply => .replied reply
    | _ => .refused stoppedBeforeReplying
  else .queued

/-- How a request is treated in the end, by what has been given under its ticket: it is answered with a
reply, or else it is dropped. -/
def treatment (given : Option Answer) : Treatment :=
  match given.bind Answer.reply? with
  | some reply => .answer reply
  | none => .drop

/-- Calls the service and then has the next event in the pipe treated. Whoever still waits after
that gives up. -/
def exchange (s : Service) (request : Request) (treatment : Treatment) :
    Service × Option Event × ServiceCall :=
  let own := Event.ofRequest s.ticket request
  let (s, call) := s.call request
  if treatment = .leave then (s, none, call)
  else
    let (s, taken) := s.next (if call = .blocked then some own else none)
    (s, taken, if call = .queued then settled own taken treatment else call)

/-- Lets the pipe take nothing new. -/
def close (s : Service) : Service := { s with pipe := s.pipe.close }

/-- Takes the replica's end of the pipe away, with everything in it. -/
def abandon (s : Service) : Service := { s with pipe := s.pipe.discard }

end Service

end RaftReplica
