import RaftReplica.Replica.Lifecycle

/-!
# Replication and commitment

A leader sends every peer the part of the log that the peer is missing, nothing to those that have
all; peers that wait for the same index share one request. An entry is committed once a majority
holds it, and entries of earlier terms only together with one of the leader's own. Committed entries
go on the commit stream in order, each once.
-/

namespace RaftReplica

/-- The most entries in one append request. -/
def maxEntriesPerAppend : Nat := 512

namespace Replica

/-- The committed entries that have not been put on the commit stream. -/
def unapplied (r : Replica) : List LogEntry :=
  (List.range (r.commitIndex - r.lastApplied)).filterMap fun k => r.log.get? (r.lastApplied + 1 + k)

/-- The highest index that a leader knows to be on a majority. Alone it is its last one. -/
def majorityIndex? (r : Replica) : Option Nat :=
  r.progress.map fun progress => (clusterCommitIndex progress.matched).getD r.log.lastIndex

/-- The request for peers that wait for `next`, if the log reaches up to there. -/
def appendRequest? (r : Replica) (next : Nat) : Option AppendRequest :=
  (r.log.termAt? (next - 1)).map fun prevLogTerm =>
    { term := r.term
      leader := r.name
      prevLogIndex := next - 1
      prevLogTerm
      leaderCommit := r.commitIndex
      entries := r.log.entriesFrom next maxEntriesPerAppend }

/-- The broadcast to a group of peers that wait for `next`. -/
def groupBroadcast? (r : Replica) (next : Nat) (names : List String) : Option Effect :=
  (r.appendRequest? next).map fun request =>
    .broadcast (r.peers.filter fun seat => names.contains seat.peer.name) (.append request)

/-- The broadcasts of one round of replication, for groups in any order. -/
def groupBroadcasts (r : Replica) (groups : List (Nat × List String)) : List Effect :=
  groups.filterMap fun (next, names) => r.groupBroadcast? next names

/-- The broadcasts of one round of replication. -/
def replicationBroadcasts (r : Replica) : List Effect :=
  match r.progress with
  | none => []
  | some progress => r.groupBroadcasts progress.groups

end Replica

namespace Turn

/-- Puts committed entries on the commit stream. -/
def applyCommitted (t : Turn) : Turn :=
  (t.emitAll (t.replica.unapplied.map Effect.commit)).update fun r =>
    { r with lastApplied := max r.lastApplied r.commitIndex }

/-- Commits up to an index. -/
def commitTo (t : Turn) (index : Nat) : Turn :=
  (t.update fun r => { r with commitIndex := index }).applyCommitted

/-- Commits what a majority holds, if that ends in an entry of the leader's own term. -/
def advanceCommitIndex (t : Turn) : Turn :=
  match t.replica.majorityIndex? with
  | none => t
  | some index =>
    if t.replica.commitIndex < index ∧ t.replica.log.termAt? index = some t.replica.term then
      t.commitTo index
    else t

/-- Sends every peer what it is missing. -/
def replicate (t : Turn) : Turn := t.emitAll t.replica.replicationBroadcasts

/-- Takes the leadership. A leader without peers commits on its own. -/
def becomeLeader (t : Turn) : Turn :=
  (t.prepareLeader.settle .leader).advanceCommitIndex.replicate

/-- Accepts a term and the leader that is known in it, as a follower. A later term clears the
vote. -/
def stepDown (t : Turn) (term : Nat) (leader : Option String) : Turn :=
  let t := t.update fun r =>
    if r.term < term then { r with term, votedFor := none, leader } else { r with leader }
  if t.replica.role = .follower then t.publish
  else t.prepareFollower.settle .follower

end Turn

end RaftReplica
