import RaftReplica.Proofs.Replica.Life

/-!
# The terms a replica comes to

Messages are of a term, and whoever hears of a later term takes it over at once.  Only those who stand for
election begin a term of their own, the next one, if there is a next one.

* `Event.term` is the term that a message is of, and `Replica.Standing` says which event has a replica begin
  a term of its own.
* `Replica.term_handle` says which term an event leads to.
* `Life.term_le` says that terms stay words.
-/

namespace RaftReplica

/-- The term that a message is of.  Other events have none. -/
def Event.term : Event → Nat
  | .voteRequest request _ => request.term
  | .voteReply reply => reply.term
  | .appendRequest request _ => request.term
  | .appendReply reply => reply.term
  | _ => 0

namespace Replica

/-- Whether an event has a replica stand for election. -/
def Standing (r : Replica) (event : Event) : Prop :=
  event = .electionTimeout ∧ (r.role = .follower ∨ r.role = .candidate)

instance (r : Replica) (event : Event) : Decidable (r.Standing event) :=
  inferInstanceAs (Decidable (_ ∧ _))

end Replica

/-! ## Terms -/

namespace Turn

variable (t : Turn)

theorem term_onWriteAheads (batch : List WriteAhead) :
    (t.onWriteAheads batch).replica.term = t.replica.term := by
  by_cases hleads : t.replica.role = .leader
  · obtain ⟨commitIndex, lastApplied, h⟩ := t.exists_replica_onWriteAheads batch hleads
    rw [h]
  · rw [t.onWriteAheads_of_not_leader batch hleads, replica_foldl_refuseOne]

theorem term_onHeartbeatTimeout : t.onHeartbeatTimeout.replica.term = t.replica.term := by
  unfold onHeartbeatTimeout
  split <;> rfl

theorem term_onVoteRequest (request : VoteRequest) (ticket : Ticket) :
    (t.onVoteRequest request ticket).replica.term = max t.replica.term request.term := by
  rcases Nat.lt_or_ge request.term t.replica.term with hstale | hle
  · rw [t.onVoteRequest_of_lt ticket hstale, replica_emit]
    omega
  · have hheeds := (t.kept_heed hle).1
    rw [t.onVoteRequest_of_le ticket hle]
    unfold decideVote
    split <;> simp [hheeds, hle]

theorem term_advanceCommitIndex : t.advanceCommitIndex.replica.term = t.replica.term := by
  obtain ⟨commitIndex, lastApplied, h⟩ := t.exists_replica_advanceCommitIndex
  rw [h]

theorem term_becomeLeader : t.becomeLeader.replica.term = t.replica.term := by
  obtain ⟨commitIndex, lastApplied, h⟩ := t.exists_replica_becomeLeader
  rw [h]

theorem term_countVote (voter : String) : (t.countVote voter).replica.term = t.replica.term := by
  unfold countVote
  split
  · rfl
  · split
    · rfl
    · dsimp only
      split
      · exact term_becomeLeader _
      · rfl

theorem term_onVoteReply (reply : VoteReply) :
    (t.onVoteReply reply).replica.term = max t.replica.term reply.term := by
  unfold onVoteReply
  split
  · exact t.term_stepDown ..
  · split
    · rw [term_countVote]
      omega
    · omega

theorem term_onAppendRequest (request : AppendRequest) (ticket : Ticket) :
    (t.onAppendRequest request ticket).replica.term = max t.replica.term request.term := by
  rcases Nat.lt_or_ge request.term t.replica.term with hstale | hle
  · rw [t.onAppendRequest_of_lt ticket hstale, replica_emit]
    omega
  · obtain ⟨-, hterm, -⟩ := t.replica_follow hle
    rw [t.onAppendRequest_of_le ticket hle, Nat.max_eq_right hle]
    rcases (t.follow request).acceptEntries_cases request with ⟨-, h⟩ | ⟨-, h⟩
    · obtain ⟨commitIndex, lastApplied, haccept⟩ := (t.follow request).exists_replica_accept request
      simp only [h, replica_emit, haccept, hterm]
    · simp only [h, replica_emit, hterm]

theorem term_onAppendReply (reply : AppendReply) :
    (t.onAppendReply reply).replica.term = max t.replica.term reply.term := by
  unfold onAppendReply
  split
  · exact t.term_stepDown ..
  · split
    · rename_i hpresent
      have hmax : max t.replica.term reply.term = t.replica.term := by omega
      rw [hmax]
      split
      · unfold noteReply
        dsimp only
        split
        · split
          · exact term_advanceCommitIndex _
          · rfl
        · rfl
      · rfl
    · omega

/-- Nobody stands in a term that is no word. -/
theorem term_onElectionTimeout_le (h : t.replica.term ≤ wordMax) :
    t.onElectionTimeout.1.replica.term ≤ wordMax := by
  rcases Nat.lt_or_ge t.replica.term wordMax with hlt | hge
  · rcases t.onElectionTimeout_cases with
      heq | ⟨-, ⟨cause, -, heq⟩ | ⟨election, -, ⟨-, heq⟩ | heq⟩⟩
    · rwa [heq]
    · rw [heq]
      exact hlt
    · rw [heq, term_becomeLeader, replica_stand]
      exact hlt
    · rw [heq, replica_emit, replica_stand]
      exact hlt
  · have hlast : succ? t.replica.term = none := if_neg (Nat.not_lt.mpr hge)
    unfold onElectionTimeout
    split
    · rw [hlast]
      exact h
    · exact h

end Turn

namespace Replica

/-- **Besides standing for election, a replica only ever comes to the terms of the messages it is sent**, and
only to later ones. -/
theorem term_handle (r : Replica) {event : Event} (h : event ≠ .electionTimeout) :
    (r.handle event).1.replica.term = max r.term event.term := by
  unfold handle Turn.handle
  cases event with
  | error message => exact (Nat.max_zero r.term).symm
  | writeAhead write => exact ((Turn.start r).term_onWriteAheads [write]).trans (Nat.max_zero r.term).symm
  | aggregatedWriteAhead batch =>
    exact ((Turn.start r).term_onWriteAheads batch).trans (Nat.max_zero r.term).symm
  | heartbeatTimeout =>
    exact (Turn.start r).term_onHeartbeatTimeout.trans (Nat.max_zero r.term).symm
  | electionTimeout => exact absurd rfl h
  | voteRequest request ticket => exact (Turn.start r).term_onVoteRequest request ticket
  | voteReply reply => exact (Turn.start r).term_onVoteReply reply
  | appendRequest request ticket => exact (Turn.start r).term_onAppendRequest request ticket
  | appendReply reply => exact (Turn.start r).term_onAppendReply reply

theorem term_handle_le {r : Replica} {event : Event} (h : r.term ≤ wordMax)
    (hmessage : event.term ≤ wordMax) : (r.handle event).1.replica.term ≤ wordMax := by
  by_cases htimeout : event = .electionTimeout
  · subst htimeout
    exact (Turn.start r).term_onElectionTimeout_le h
  · rw [r.term_handle htimeout]
    exact Nat.max_le.mpr ⟨h, hmessage⟩

end Replica

/-- Terms are words as long as those of the messages are. -/
theorem Life.term_le (life : Life) {k : Nat} (hmessages : ∀ j < k, (life.event j).term ≤ wordMax) :
    (life.state k).term ≤ wordMax := by
  induction k with
  | zero =>
    rw [life.fresh.term]
    exact Nat.zero_le _
  | succ k ih =>
    have hbefore := ih fun j hj => hmessages j (Nat.lt_succ_of_lt hj)
    exact Replica.term_handle_le hbefore (hmessages k (Nat.lt_succ_self k))

end RaftReplica
