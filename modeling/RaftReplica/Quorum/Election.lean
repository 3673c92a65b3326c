import RaftReplica.Failure
import RaftReplica.Quorum.Basic
import RaftReplica.Text.Quoted

/-!
# Elections

An election collects the votes of a quorum's members, at most one from each, and has passed once more
than half of them have voted. It keeps the membership it was called with. A quorum of nobody, or of
more members than a 16-bit count of ballots reaches, holds no election.

`Election` says who has voted. `Election.Tally` is the same as it is kept while votes come in, as a flag for
each member and a count.
-/

namespace RaftReplica

/-- The votes collected so far from the members of a quorum. -/
structure Election where
  quorumId : UInt64
  members : NameSet
  voters : NameSet

/-- Why a quorum holds no election. -/
inductive ElectionError where
  | emptyQuorum
  | quorumTooLarge
deriving DecidableEq, Repr

def ElectionError.message : ElectionError → String
  | emptyQuorum => "cannot create a vote for an empty quorum"
  | quorumTooLarge => "cannot create a vote for extremely large quorum"

def ElectionError.kind : ElectionError → String
  | emptyQuorum => "EmptyQuorum"
  | quorumTooLarge => "QuorumTooLarge"

instance : Failure ElectionError := ⟨ElectionError.kind, ElectionError.message⟩

/-- Why a vote does not count. -/
inductive VoteError where
  | notAMember (name : String)
  | alreadyVoted (name : String)
deriving DecidableEq, Repr

def VoteError.message : VoteError → String
  | notAMember name => s!"{Text.quote name} is not a member of the quorum"
  | alreadyVoted name => s!"{Text.quote name} has already voted in this election"

def VoteError.kind : VoteError → String
  | notAMember _ => "NotAMember"
  | alreadyVoted _ => "AlreadyVoted"

instance : Failure VoteError := ⟨VoteError.kind, VoteError.message⟩

/-- The most members that an election counts. -/
def Election.maxMembers : Nat := 2 ^ 16 - 1

/-- Calls an election of the quorum's members. -/
def Quorum.election (q : Quorum) : Except ElectionError Election :=
  if q.size = 0 then .error .emptyQuorum
  else if Election.maxMembers < q.size then .error .quorumTooLarge
  else .ok { quorumId := q.id, members := q.hosts, voters := ∅ }

namespace Election

/-- How many votes it takes. -/
def majority (e : Election) : Nat := e.members.size / 2 + 1

/-- How many have voted. -/
def ballots (e : Election) : Nat := e.voters.size

def passed (e : Election) : Bool := e.majority ≤ e.ballots

/-- Counts a member's vote and says whether the election has passed with it. -/
def vote (e : Election) (member : String) : Except VoteError (Bool × Election) :=
  if !e.members.contains member then .error (.notAMember member)
  else if e.voters.contains member then .error (.alreadyVoted member)
  else
    let e := { e with voters := e.voters.insert member }
    .ok (e.passed, e)

/-! ## Flags and a count -/

/-- A tally that is kept as it is counted: for each member whether it has voted, and in sixteen bits how many
have. -/
structure Tally where
  flags : Std.TreeMap String Bool compare
  ballots : UInt16

namespace Tally

/-- Nobody has voted yet. -/
def called (members : NameSet) : Tally :=
  { flags := Std.TreeMap.ofList (members.toList.map fun name => (name, false)) compare, ballots := 0 }

def majority (t : Tally) : Nat := t.flags.size / 2 + 1

def passed (t : Tally) : Bool := t.majority ≤ t.ballots.toNat

/-- Raises the flag of a member that has not voted, and counts it. The second component is the tally that is
left, also after a call that fails. -/
def vote (t : Tally) (member : String) : Except VoteError Bool × Tally :=
  match t.flags[member]? with
  | none => (.error (.notAMember member), t)
  | some true => (.error (.alreadyVoted member), t)
  | some false =>
    let t : Tally := { flags := t.flags.insert member true, ballots := t.ballots + 1 }
    (.ok t.passed, t)

end Tally

end Election

end RaftReplica
