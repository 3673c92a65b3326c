import RaftReplica.Bytes

/-!
# Messages between replicas

A candidate asks for votes, a leader ships log entries; both kinds of request are answered by the
replica that handles them. All numbers fit a 64-bit word on the wire.
-/

namespace RaftReplica

/-- An entry of the replicated log. -/
structure LogEntry where
  index : Nat
  term : Nat
  data : Bytes
deriving DecidableEq, Inhabited, Repr

/-- A candidate's request for a vote, with the end of its log. -/
structure VoteRequest where
  term : Nat
  candidate : String
  lastLogIndex : Nat
  lastLogTerm : Nat
deriving DecidableEq, Inhabited, Repr

structure VoteReply where
  remote : String
  term : Nat
  granted : Bool
deriving DecidableEq, Inhabited, Repr

/-- A leader's request to place entries behind one that both logs should hold. -/
structure AppendRequest where
  term : Nat
  leader : String
  prevLogIndex : Nat
  prevLogTerm : Nat
  leaderCommit : Nat
  entries : List LogEntry
deriving DecidableEq, Inhabited, Repr

/-- The answer to an append request. `index` is the last index the remote holds in common with the
leader, or where its log ends if it refuses. -/
structure AppendReply where
  remote : String
  term : Nat
  success : Bool
  index : Nat
  commitIndex : Nat
deriving DecidableEq, Inhabited, Repr

/-- What one replica asks of another. -/
inductive Request where
  | vote (request : VoteRequest)
  | append (request : AppendRequest)
deriving DecidableEq, Repr

/-- What a replica answers another. -/
inductive Reply where
  | vote (reply : VoteReply)
  | append (reply : AppendReply)
deriving DecidableEq, Repr

end RaftReplica
