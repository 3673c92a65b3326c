import RaftReplica.Replica.Effects

/-!
# A turn does not look back

What a replica does next depends on its state alone, and not on what it has had done already.  So a turn
that goes on from another one adds to its effects what it would have as a turn of its own.

* `behind` puts effects before those of a turn.
* Every part of a turn passes by what is before it, and so does `handle_behind`.
* `handle_eq` reads handling an event as a turn of its own behind the effects so far.
-/

namespace RaftReplica.Turn

/-- The turn with these effects before its own. -/
def behind (t : Turn) (effects : List Effect) : Turn := ⟨t.replica, effects ++ t.effects⟩

variable (t : Turn) (before : List Effect)

@[simp] theorem replica_behind : (t.behind before).replica = t.replica := rfl

theorem behind_start : (start t.replica).behind t.effects = t := by
  simp [behind, start]

/-! ## The parts of a turn -/

@[simp] theorem update_behind (change : Replica → Replica) :
    (t.behind before).update change = (t.update change).behind before := rfl

@[simp] theorem emit_behind (effect : Effect) :
    (t.behind before).emit effect = (t.emit effect).behind before := by
  simp [behind, emit]

@[simp] theorem emitAll_behind (effects : List Effect) :
    (t.behind before).emitAll effects = (t.emitAll effects).behind before := by
  simp [behind, emitAll]

@[simp] theorem publish_behind : (t.behind before).publish = t.publish.behind before := by
  simp only [publish, replica_behind, update_behind, emit_behind]
  split <;> rfl

@[simp] theorem startTicker_behind (tick : Tick) :
    (t.behind before).startTicker tick = (t.startTicker tick).behind before := by
  simp only [startTicker, update_behind, emit_behind]

@[simp] theorem stopTicker_behind (tick : Tick) :
    (t.behind before).stopTicker tick = (t.stopTicker tick).behind before := by
  simp only [stopTicker, replica_behind, update_behind, emit_behind]
  split <;> rfl

@[simp] theorem interruptTicker_behind (tick : Tick) :
    (t.behind before).interruptTicker tick = (t.interruptTicker tick).behind before := by
  simp only [interruptTicker, replica_behind, emit_behind]
  split <;> rfl

@[simp] theorem settle_behind (role : Role) :
    (t.behind before).settle role = (t.settle role).behind before := by
  simp only [settle, update_behind, publish_behind]

@[simp] theorem leaveOffice_behind : (t.behind before).leaveOffice = t.leaveOffice.behind before := rfl

@[simp] theorem prepareFollower_behind :
    (t.behind before).prepareFollower = t.prepareFollower.behind before := by
  simp only [prepareFollower, leaveOffice_behind, stopTicker_behind, replica_behind,
    interruptTicker_behind, startTicker_behind]
  split <;> rfl

@[simp] theorem prepareLeader_behind :
    (t.behind before).prepareLeader = t.prepareLeader.behind before := by
  simp only [prepareLeader, leaveOffice_behind, stopTicker_behind, startTicker_behind, update_behind]

/-- A candidacy fails or succeeds regardless. -/
@[simp] theorem enter_candidate_behind :
    (t.behind before).enter .candidate =
      ((t.enter .candidate).1.behind before, (t.enter .candidate).2) := by
  simp only [enter, prepareCandidate, leaveOffice_behind, replica_behind, update_behind]
  cases t.leaveOffice.replica.quorum.election with
  | error cause => rfl
  | ok election => simp only [settle_behind]

@[simp] theorem commitTo_behind (index : Nat) :
    (t.behind before).commitTo index = (t.commitTo index).behind before := by
  simp only [commitTo, applyCommitted, update_behind, replica_behind, emitAll_behind]

@[simp] theorem advanceCommitIndex_behind :
    (t.behind before).advanceCommitIndex = t.advanceCommitIndex.behind before := by
  simp only [advanceCommitIndex, replica_behind, commitTo_behind]
  split
  · rfl
  · split <;> rfl

@[simp] theorem replicate_behind : (t.behind before).replicate = t.replicate.behind before := by
  simp only [replicate, replica_behind, emitAll_behind]

@[simp] theorem becomeLeader_behind :
    (t.behind before).becomeLeader = t.becomeLeader.behind before := by
  simp only [becomeLeader, prepareLeader_behind, settle_behind, advanceCommitIndex_behind,
    replicate_behind]

@[simp] theorem stepDown_behind (term : Nat) (leader : Option String) :
    (t.behind before).stepDown term leader = (t.stepDown term leader).behind before := by
  simp only [stepDown, update_behind, replica_behind, publish_behind, prepareFollower_behind,
    settle_behind]
  split <;> rfl

/-! ## Events -/

@[simp] theorem respond_behind (write : WriteAhead) (answer : Answer) :
    (t.behind before).respond write answer = (t.respond write answer).behind before := by
  simp only [respond, emit_behind]
  split <;> rfl

theorem foldl_behind {act : Turn → WriteAhead → Turn}
    (hact : ∀ t write, act (t.behind before) write = (act t write).behind before)
    (batch : List WriteAhead) : batch.foldl act (t.behind before) = (batch.foldl act t).behind before := by
  induction batch generalizing t with
  | nil => rfl
  | cons write batch ih => rw [List.foldl_cons, hact, ih, List.foldl_cons]

@[simp] theorem writeOne_behind (write : WriteAhead) :
    (t.behind before).writeOne write = (t.writeOne write).behind before := by
  simp only [writeOne, replica_behind, update_behind, respond_behind]

@[simp] theorem refuseOne_behind (write : WriteAhead) :
    (t.behind before).refuseOne write = (t.refuseOne write).behind before := by
  simp only [refuseOne, replica_behind, respond_behind]

@[simp] theorem onWriteAheads_behind (batch : List WriteAhead) :
    (t.behind before).onWriteAheads batch = (t.onWriteAheads batch).behind before := by
  have hwrite := t.foldl_behind before (fun t => t.writeOne_behind before) batch
  have hrefuse := t.foldl_behind before (fun t => t.refuseOne_behind before) batch
  simp only [onWriteAheads, replica_behind, hwrite, hrefuse, advanceCommitIndex_behind,
    replicate_behind]
  split <;> rfl

@[simp] theorem onHeartbeatTimeout_behind :
    (t.behind before).onHeartbeatTimeout = t.onHeartbeatTimeout.behind before := by
  simp only [onHeartbeatTimeout, replica_behind, replicate_behind]
  split <;> rfl

theorem onElectionTimeout_behind :
    (t.behind before).onElectionTimeout =
      (t.onElectionTimeout.1.behind before, t.onElectionTimeout.2) := by
  simp only [onElectionTimeout, replica_behind, update_behind, enter_candidate_behind]
  split
  · cases succ? t.replica.term with
    | none => rfl
    | some term =>
      dsimp only
      generalize enter _ .candidate = entered
      obtain ⟨entered, result⟩ := entered
      cases result with
      | error error => rfl
      | ok =>
        simp only [replica_behind, becomeLeader_behind, emit_behind]
        split <;> rfl
  · rfl

@[simp] theorem decideVote_behind (request : VoteRequest) :
    (t.behind before).decideVote request =
      ((t.decideVote request).1.behind before, (t.decideVote request).2) := by
  simp only [decideVote, replica_behind, update_behind, interruptTicker_behind]
  split <;> rfl

@[simp] theorem onVoteRequest_behind (request : VoteRequest) (ticket : Ticket) :
    (t.behind before).onVoteRequest request ticket =
      (t.onVoteRequest request ticket).behind before := by
  simp only [onVoteRequest, replica_behind, stepDown_behind]
  split
  · exact emit_behind ..
  · split <;> simp only [decideVote_behind, replica_behind, emit_behind]

@[simp] theorem countVote_behind (voter : String) :
    (t.behind before).countVote voter = (t.countVote voter).behind before := by
  simp only [countVote, replica_behind, update_behind, becomeLeader_behind]
  split
  · rfl
  · split
    · rfl
    · split <;> rfl

@[simp] theorem onVoteReply_behind (reply : VoteReply) :
    (t.behind before).onVoteReply reply = (t.onVoteReply reply).behind before := by
  simp only [onVoteReply, replica_behind, stepDown_behind, countVote_behind]
  split
  · rfl
  · split <;> rfl

@[simp] theorem acceptEntries_behind (request : AppendRequest) :
    (t.behind before).acceptEntries request =
      ((t.acceptEntries request).1.behind before, (t.acceptEntries request).2) := by
  simp only [acceptEntries, replica_behind, update_behind, commitTo_behind]
  split
  · split <;> rfl
  · rfl

@[simp] theorem onAppendRequest_behind (request : AppendRequest) (ticket : Ticket) :
    (t.behind before).onAppendRequest request ticket =
      (t.onAppendRequest request ticket).behind before := by
  simp only [onAppendRequest, replica_behind, stepDown_behind]
  split
  · exact emit_behind ..
  · split <;> simp only [interruptTicker_behind, acceptEntries_behind, emit_behind]

@[simp] theorem noteReply_behind (progress : Progress) (reply : AppendReply) :
    (t.behind before).noteReply progress reply = (t.noteReply progress reply).behind before := by
  simp only [noteReply, replica_behind, update_behind, advanceCommitIndex_behind]
  split
  · split <;> rfl
  · rfl

@[simp] theorem onAppendReply_behind (reply : AppendReply) :
    (t.behind before).onAppendReply reply = (t.onAppendReply reply).behind before := by
  simp only [onAppendReply, replica_behind, stepDown_behind, noteReply_behind]
  split
  · rfl
  · split
    · split <;> rfl
    · rfl

theorem handle_behind (event : Event) :
    (t.behind before).handle event = ((t.handle event).1.behind before, (t.handle event).2) := by
  cases event with
  | electionTimeout => exact t.onElectionTimeout_behind before
  | error | writeAhead | aggregatedWriteAhead | heartbeatTimeout | voteRequest | voteReply
    | appendRequest | appendReply => simp [handle]

/-- To handle an event is to take a turn of its own behind what has been done. -/
theorem handle_eq (event : Event) :
    t.handle event =
      ((t.replica.handle event).1.behind t.effects, (t.replica.handle event).2) := by
  conv => lhs; rw [← t.behind_start]
  exact handle_behind (start t.replica) t.effects event

end RaftReplica.Turn
