import RaftReplica.Failure
import RaftReplica.Message
import RaftReplica.Text.Quoted
import RaftReplica.Time.Tick

/-!
# Events

Everything that a replica acts on reaches it as an event: data to write, timeouts, requests of other
replicas, and their replies to its own. Who waits for an answer is named by a ticket, under which the
answer is given.
-/

namespace RaftReplica

/-- Names somebody who waits for an answer. -/
abbrev Ticket := Nat

/-- A request to append data to the log, with the ticket of whoever waits for its place, if anybody
does. -/
structure WriteAhead where
  data : Bytes
  ticket : Option Ticket
deriving DecidableEq, Repr

/-- Why data is not written. -/
inductive WriteAheadError where
  | notLeader (leader : Option String)
  | stopped
deriving DecidableEq, Repr

def WriteAheadError.message : WriteAheadError → String
  | notLeader leader => s!"replica is not the leader (leader: {Text.quoteOption leader})"
  | stopped => "replica stopped before the entry was handled"

def WriteAheadError.kind : WriteAheadError → String
  | notLeader _ => "NotLeader"
  | stopped => "Stopped"

instance : Failure WriteAheadError := ⟨WriteAheadError.kind, WriteAheadError.message⟩

/-- What a replica acts on. -/
inductive Event where
  | error (message : String)
  | writeAhead (write : WriteAhead)
  /-- Write-aheads that share one round of replication. -/
  | aggregatedWriteAhead (batch : List WriteAhead)
  | heartbeatTimeout
  | electionTimeout
  | voteRequest (request : VoteRequest) (ticket : Ticket)
  | voteReply (reply : VoteReply)
  | appendRequest (request : AppendRequest) (ticket : Ticket)
  | appendReply (reply : AppendReply)
deriving DecidableEq, Repr

/-- What is given under a ticket. -/
inductive Answer where
  /-- Where the leader put the data. It is not committed yet. -/
  | receipt (term index : Nat)
  | refusal (error : WriteAheadError)
  | vote (reply : VoteReply)
  | append (reply : AppendReply)
deriving DecidableEq, Repr

/-- The reply that an answer to a request is. -/
def Answer.reply? : Answer → Option Reply
  | vote reply => some (.vote reply)
  | append reply => some (.append reply)
  | receipt .. | refusal _ => none

/-- The kinds of events, with one for numbers that name none. -/
inductive EventKind where
  | unknown
  | error
  | writeAhead
  | aggregatedWriteAhead
  | heartbeatTimeout
  | electionTimeout
  | voteRequest
  | voteReply
  | appendRequest
  | appendReply
deriving DecidableEq, Repr

namespace EventKind

def name : EventKind → String
  | unknown => "unknown"
  | error => "error"
  | writeAhead => "writeAhead"
  | aggregatedWriteAhead => "aggregatedWriteAhead"
  | heartbeatTimeout => "heartbeatTimeout"
  | electionTimeout => "electionTimeout"
  | voteRequest => "voteRequest"
  | voteReply => "voteReply"
  | appendRequest => "appendRequest"
  | appendReply => "appendReply"

def code : EventKind → Nat
  | unknown => 0
  | error => 1
  | writeAhead => 2
  | aggregatedWriteAhead => 3
  | heartbeatTimeout => 4
  | electionTimeout => 5
  | voteRequest => 6
  | voteReply => 7
  | appendRequest => 8
  | appendReply => 9

def ofCode : Nat → EventKind
  | 1 => error
  | 2 => writeAhead
  | 3 => aggregatedWriteAhead
  | 4 => heartbeatTimeout
  | 5 => electionTimeout
  | 6 => voteRequest
  | 7 => voteReply
  | 8 => appendRequest
  | 9 => appendReply
  | _ => unknown

end EventKind

namespace Event

def kind : Event → EventKind
  | error _ => .error
  | writeAhead _ => .writeAhead
  | aggregatedWriteAhead _ => .aggregatedWriteAhead
  | heartbeatTimeout => .heartbeatTimeout
  | electionTimeout => .electionTimeout
  | voteRequest .. => .voteRequest
  | voteReply _ => .voteReply
  | appendRequest .. => .appendRequest
  | appendReply _ => .appendReply

/-- The timeout that a tick stands for. -/
def ofTick : Tick → Event
  | .heartbeat => heartbeatTimeout
  | .election => electionTimeout

/-- The event of a request that somebody waits on. -/
def ofRequest (ticket : Ticket) : Request → Event
  | .vote request => voteRequest request ticket
  | .append request => appendRequest request ticket

/-- The event of a reply to one's own request. -/
def ofReply : Reply → Event
  | .vote reply => voteReply reply
  | .append reply => appendReply reply

/-- The write-aheads that an event carries. -/
def writes : Event → List WriteAhead
  | writeAhead write => [write]
  | aggregatedWriteAhead batch => batch
  | _ => []

/-- The event of a batch; one write-ahead is no batch. -/
def ofBatch : List WriteAhead → Event
  | [write] => writeAhead write
  | batch => aggregatedWriteAhead batch

/-- The tickets of all who wait on an event. -/
def tickets : Event → List Ticket
  | writeAhead write => write.ticket.toList
  | aggregatedWriteAhead batch => batch.filterMap (·.ticket)
  | voteRequest _ ticket => [ticket]
  | appendRequest _ ticket => [ticket]
  | _ => []

end Event

end RaftReplica
