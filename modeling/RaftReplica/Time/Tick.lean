/-!
# Ticks
-/

namespace RaftReplica

/-- The two timeouts that a replica runs on. -/
inductive Tick where
  /-- It is time for a leader to make itself heard. -/
  | heartbeat
  /-- Nobody has been heard from for too long. -/
  | election
deriving DecidableEq, Repr

end RaftReplica
