import RaftReplica.Event.Loop
import RaftReplica.Replica.Effects

/-!
# Served replicas

A served replica is fed through a pipe and runs an event loop over it. The loop ends when the replica
is told to stop, when the pipe ends, or when an event cannot be handled; whatever is still queued then
is dropped unanswered, and the replica stops. A handling error is kept as the result of the loop and
makes the replica unhealthy.

One thing is no handling error. A replica that would stand for election after the largest term comes apart
in the middle of the event, and the loop with it. It does not come to stop then: its pipe is gone and so are
its timers, but nobody is told, and neither its calls nor its connections are ended.
-/

namespace RaftReplica

/-- A replica with the pipe of its loop. -/
structure Served where
  /-- The replica with the effects that have not been carried out yet. -/
  turn : Turn
  pipe : Pipe Event
  /-- How the loop ended, if it has. -/
  ended : Option (Except ReplicaError Unit)

namespace Turn

/-- A replica as the handler of a loop. -/
def handler : Handler Turn ReplicaError := fun feed event =>
  let (t, result) := feed.state.handle event
  ({ feed with state := t }, result)

/-- Lets go of the timers, and of nothing else. -/
def unwind (t : Turn) : Turn := (t.stopTicker .heartbeat).stopTicker .election

/-- What becomes of a replica when its loop ends. -/
def conclude (t : Turn) : Except ReplicaError Unit → Turn
  | .ok () => t.shutDown
  | .error .termExhausted => t.unwind
  | .error _ => (t.update fun r => { r with health := { r.health with healthy := false } }).shutDown

end Turn

namespace Served

def replica (s : Served) : Replica := s.turn.replica

/-- Ends the loop. -/
def finish (s : Served) (result : Except ReplicaError Unit) : Served :=
  ⟨s.turn.conclude result, s.pipe.discard, some result⟩

/-- Where the loop comes to in so many rounds, unless it waits or ends before. -/
def drive (s : Served) (rounds : Nat) : Feed Turn × Loop.Status ReplicaError :=
  Loop.run s.replica.settings.aggregate Turn.handler rounds ⟨s.turn, s.pipe⟩

/-- Runs the loop for so many rounds, unless it waits or ends before. -/
def advance (s : Served) (rounds : Nat) : Served :=
  if s.ended.isSome then s
  else
    let (feed, status) := s.drive rounds
    let s : Served := ⟨feed.state, feed.pipe, none⟩
    match status with
    | .waiting | .busy => s
    | .closed => s.finish (.ok ())
    | .failed error => s.finish (.error error)

/-- Runs the loop until it waits or ends, for which it takes a round for each event and one more. -/
def work (s : Served) : Served := s.advance (s.pipe.queue.length + 1)

/-- Has the loop end before it takes another event, and gives the result of the loop. -/
def shutDown (s : Served) : Served × Except ReplicaError Unit :=
  match s.ended with
  | some result => (s, result)
  | none => (s.finish (.ok ()), .ok ())

/-- Hands out the effects to carry out. -/
def takeEffects (s : Served) : List Effect × Served :=
  (s.turn.effects, { s with turn := Turn.start s.replica })

end Served

/-- Opens a replica's pipe and bootstraps it. One that cannot be bootstrapped is stopped. -/
def Replica.serve (r : Replica) : Served :=
  let pipe := Pipe.ofCapacity r.settings.bufferSize
  match (Turn.start { r with listening := true }).bootstrap with
  | (t, .ok ()) => ⟨t, pipe, none⟩
  | (t, .error error) => ⟨t.shutDown, pipe.discard, some (.error error)⟩

end RaftReplica
