import RaftReplica.Replica.Replication

/-!
# Handling events

What a replica does with each kind of event. Only two events can fail: one that says so itself, and
an election timeout, when there is no next term or nobody to elect. Everything else is handled to the
end and every request is answered.
-/

namespace RaftReplica

namespace Replica

/-- The request that a candidate sends to all peers. -/
def voteRequest (r : Replica) : VoteRequest :=
  { term := r.term
    candidate := r.name
    lastLogIndex := r.log.lastIndex
    lastLogTerm := r.log.lastTerm }

/-- Whether a replica gives a candidate of its own term its vote: it has given it to nobody else,
the candidate is a member, and the candidate's log is at least as up to date. -/
def grants (r : Replica) (request : VoteRequest) : Bool :=
  (r.votedFor = none || r.votedFor = some request.candidate) &&
    r.quorum.contains request.candidate &&
    r.log.coveredBy request.lastLogTerm request.lastLogIndex

def voteReply (r : Replica) (granted : Bool) : VoteReply := ⟨r.name, r.term, granted⟩

def appendReply (r : Replica) (success : Bool) (index : Nat) : AppendReply :=
  ⟨r.name, r.term, success, index, r.commitIndex⟩

/-- Whether an append request of a valid term changes whom the replica follows. -/
def changesAllegiance (r : Replica) (request : AppendRequest) : Bool :=
  r.term < request.term || r.role ≠ .follower || r.leader ≠ some request.leader

end Replica

namespace Turn

/-- Answers whoever waits on a write-ahead, if anybody does. -/
def respond (t : Turn) (write : WriteAhead) (answer : Answer) : Turn :=
  match write.ticket with
  | some ticket => t.emit (.answer ticket answer)
  | none => t

/-- A leader appends the data and tells where. -/
def writeOne (t : Turn) (write : WriteAhead) : Turn :=
  let (index, log) := t.replica.log.append t.replica.term write.data
  (t.update fun r => { r with log }).respond write (.receipt t.replica.term index)

/-- Any other replica tells who leads. -/
def refuseOne (t : Turn) (write : WriteAhead) : Turn :=
  t.respond write (.refusal (.notLeader t.replica.leader))

/-- Write-aheads, which a leader appends in order and replicates in one round. -/
def onWriteAheads (t : Turn) (batch : List WriteAhead) : Turn :=
  if t.replica.role = .leader then
    (batch.foldl writeOne t).advanceCommitIndex.replicate
  else batch.foldl refuseOne t

/-- A leader makes itself heard. -/
def onHeartbeatTimeout (t : Turn) : Turn :=
  if t.replica.role = .leader then t.replicate else t

/-- A replica that has heard from nobody stands for election in the next term. -/
def onElectionTimeout (t : Turn) : Outcome :=
  if t.replica.role = .follower ∨ t.replica.role = .candidate then
    match succ? t.replica.term with
    | none => (t, .error .termExhausted)
    | some term =>
      let t := t.update fun r => { r with term, votedFor := some r.name, leader := none }
      match t.enter .candidate with
      | (t, .error error) => (t, .error error)
      | (t, .ok ()) =>
        if t.replica.election.any (·.passed) then (t.becomeLeader, .ok ())
        else
          let request := Request.vote (t.replica.voteRequest)
          (t.emit (.broadcast t.replica.peers request), .ok ())
  else (t, .ok ())

/-- Decides on a vote in the present term. -/
def decideVote (t : Turn) (request : VoteRequest) : Turn × Bool :=
  if t.replica.grants request then
    ((t.update fun r => { r with votedFor := some request.candidate }).interruptTicker .election,
      true)
  else (t, false)

/-- A request for the replica's vote. -/
def onVoteRequest (t : Turn) (request : VoteRequest) (ticket : Ticket) : Turn :=
  let (t, granted) :=
    if request.term < t.replica.term then (t, false)
    else
      let t := if t.replica.term < request.term then t.stepDown request.term none else t
      t.decideVote request
  t.emit (.answer ticket (.vote (t.replica.voteReply granted)))

/-- Counts a granted vote; one that does not count is discarded. -/
def countVote (t : Turn) (voter : String) : Turn :=
  match t.replica.election with
  | none => t
  | some election =>
    match election.vote voter with
    | .error _ => t
    | .ok (passed, election) =>
      let t := t.update fun r => { r with election := some election }
      if passed then t.becomeLeader else t

/-- A reply to the replica's own request for votes. -/
def onVoteReply (t : Turn) (reply : VoteReply) : Turn :=
  if t.replica.term < reply.term then t.stepDown reply.term none
  else if t.replica.role = .candidate ∧ reply.term = t.replica.term ∧ reply.granted then
    t.countVote reply.remote
  else t

/-- Merges a leader's entries, if the logs agree on the entry before them, and commits what the
leader has committed of them. -/
def acceptEntries (t : Turn) (request : AppendRequest) : Turn × AppendReply :=
  if t.replica.log.termAt? request.prevLogIndex = some request.prevLogTerm then
    let (lastNew, log) := t.replica.log.merge request.prevLogIndex request.entries
    let t := t.update fun r => { r with log }
    let committed := min request.leaderCommit lastNew
    let t := if t.replica.commitIndex < committed then t.commitTo committed else t
    (t, t.replica.appendReply true lastNew)
  else (t, t.replica.appendReply false t.replica.log.lastIndex)

/-- Entries from a leader, or its heartbeat. -/
def onAppendRequest (t : Turn) (request : AppendRequest) (ticket : Ticket) : Turn :=
  let (t, reply) :=
    if request.term < t.replica.term then
      (t, t.replica.appendReply false t.replica.log.lastIndex)
    else
      let t := if t.replica.changesAllegiance request then
          t.stepDown request.term (some request.leader)
        else t
      (t.interruptTicker .election).acceptEntries request
  t.emit (.answer ticket (.append reply))

/-- Notes a reply in the leader's view of its peers. No peer can hold more of the leader's log than
there is. -/
def noteReply (t : Turn) (progress : Progress) (reply : AppendReply) : Turn :=
  let index := min reply.index t.replica.log.lastIndex
  if progress.contains reply.remote then
    if reply.success then
      (t.update fun r => { r with progress := some (progress.succeed reply.remote index) })
        |>.advanceCommitIndex
    else t.update fun r => { r with progress := some (progress.fail reply.remote index) }
  else t

/-- A reply to the replica's own append request. -/
def onAppendReply (t : Turn) (reply : AppendReply) : Turn :=
  if t.replica.term < reply.term then t.stepDown reply.term none
  else if t.replica.role = .leader ∧ reply.term = t.replica.term then
    match t.replica.progress with
    | some progress => t.noteReply progress reply
    | none => t
  else t

/-- Handles an event. -/
def handle (t : Turn) : Event → Outcome
  | .error message => (t, .error (.aborted message))
  | .writeAhead write => (t.onWriteAheads [write], .ok ())
  | .aggregatedWriteAhead batch => (t.onWriteAheads batch, .ok ())
  | .heartbeatTimeout => (t.onHeartbeatTimeout, .ok ())
  | .electionTimeout => t.onElectionTimeout
  | .voteRequest request ticket => (t.onVoteRequest request ticket, .ok ())
  | .voteReply reply => (t.onVoteReply reply, .ok ())
  | .appendRequest request ticket => (t.onAppendRequest request ticket, .ok ())
  | .appendReply reply => (t.onAppendReply reply, .ok ())

end Turn

namespace Replica

/-- Handles an event from the present state. -/
def handle (r : Replica) (event : Event) : Outcome := (Turn.start r).handle event

/-- Goes through bootstrap from the present state. -/
def bootstrap (r : Replica) : Outcome := (Turn.start r).bootstrap

/-- Stops from the present state. -/
def shutDown (r : Replica) : Turn := (Turn.start r).shutDown

end Replica

end RaftReplica
