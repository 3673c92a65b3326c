import RaftReplica.Replica.Handle

/-!
# What comes of a turn

The effects of a turn, sorted by whom they concern: the peers that are called, those who wait for
answers, the readers of the commit stream, and those who listen for news. A call goes out only to a
peer that is connected, and never once the replica has been stopped.
-/

namespace RaftReplica

namespace Effect

/-- The calls that an effect stands for, one to each peer. -/
def calls : Effect → List (Seat × Request)
  | broadcast seats request => seats.map fun seat => (seat, request)
  | _ => []

def answer? : Effect → Option (Ticket × Answer)
  | answer ticket given => some (ticket, given)
  | _ => none

def commit? : Effect → Option LogEntry
  | commit entry => some entry
  | _ => none

def publish? : Effect → Option Snapshot
  | publish snapshot => some snapshot
  | _ => none

end Effect

namespace Turn

/-- The calls that go out. -/
def sent (t : Turn) : List (Seat × Request) :=
  if t.replica.cancelled then []
  else (t.effects.flatMap Effect.calls).filter fun (seat, _) => seat.connected

def answers (t : Turn) : List (Ticket × Answer) := t.effects.filterMap Effect.answer?

/-- The entries put on the commit stream. -/
def committed (t : Turn) : List LogEntry := t.effects.filterMap Effect.commit?

/-- The snapshots published. -/
def published (t : Turn) : List Snapshot := t.effects.filterMap Effect.publish?

/-- The answer given under a ticket. -/
def answerTo? (t : Turn) (ticket : Ticket) : Option Answer :=
  (t.answers.find? fun (given, _) => given = ticket).map (·.2)

end Turn

end RaftReplica
