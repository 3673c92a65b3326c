import RaftReplica.Proofs.Replica.Life

/-!
# What may change a log

Whatever a replica is sent, and whoever sends it, its log changes in two ways only.  A leader puts data
behind the last entry, and a follower takes over what a request ships, behind an entry that it shares with
the sender of the request.

* `Replica.Change.writes_or_merges`: what an event that changes a log must be.
* `Replica.kept_of_refused_request` and `Replica.kept_of_refused_reply`: neither a replica that refuses a
  request nor a leader that is refused changes its log or its commit index.
-/

namespace RaftReplica

namespace Replica

variable {r r' : Replica} {event : Event}

/-- An event that changes the log has been written by a leader, or is a valid request that the log agrees
with, and leaves alone what comes before the entries of the request. -/
theorem Change.writes_or_merges (h : r.Change event r') (hchanged : r'.log ≠ r.log) :
    (r.role = .leader ∧
        ((∃ write, event = .writeAhead write) ∨ ∃ batch, event = .aggregatedWriteAhead batch)) ∨
      ∃ request ticket, event = .appendRequest request ticket ∧ r.term ≤ request.term ∧
        r.log.termAt? request.prevLogIndex = some request.prevLogTerm ∧
        r'.log.entries.take request.prevLogIndex = r.log.entries.take request.prevLogIndex := by
  cases h with
  | write leads _ _ _ log =>
    left
    refine ⟨leads, ?_⟩
    cases event with
    | writeAhead write => exact Or.inl ⟨write, rfl⟩
    | aggregatedWriteAhead batch => exact Or.inr ⟨batch, rfl⟩
    | _ =>
      -- no other event has anything to write
      exact absurd (log.trans (r.log.appendAll_nil r.term)) hchanged
  | @accept request ticket _ valid agrees _ _ _ log =>
    right
    refine ⟨request, ticket, rfl, valid, agrees, ?_⟩
    rw [log]
    exact Log.take_merge (Log.le_length_of_termAt? agrees) request.entries
  | rest _ _ _ log | follow _ _ _ log | grant _ _ _ _ _ _ log | stand _ _ _ _ log
  | standInVain _ _ _ _ log | count _ _ _ _ _ _ _ _ log | win _ _ _ _ _ _ _ _ log
  | winAlone _ _ _ _ _ log | refuse _ _ _ _ log | note _ _ _ _ _ _ log => exact absurd log hchanged

/-- A request that is refused leaves log and commit index alone, of whatever term it is. -/
theorem kept_of_refused_request (r : Replica) (request : AppendRequest) (ticket : Ticket) :
    let t := (r.handle (.appendRequest request ticket)).1
    ∃ reply, t.answers = [(ticket, .append reply)] ∧
      (reply.success = false →
        t.replica.log = r.log ∧ t.replica.commitIndex = r.commitIndex) := by
  intro t
  rcases Nat.lt_or_ge request.term r.term with hstale | hvalid
  · have hturn : t = (Turn.start r).emit
        (.answer ticket (.append (r.appendReply false r.log.lastIndex))) :=
      (Turn.start r).onAppendRequest_of_lt ticket hstale
    rw [hturn]
    exact ⟨_, rfl, fun _ => ⟨rfl, rfl⟩⟩
  · obtain ⟨-, ⟨-, -, hanswers⟩ | ⟨-, hlog, hindex, hanswers⟩⟩ := r.appendRequest_cases ticket hvalid
    · exact ⟨_, hanswers, fun hrefused => absurd hrefused (Bool.noConfusion ·)⟩
    · exact ⟨_, hanswers, fun _ => ⟨hlog, hindex⟩⟩

/-- A leader that is refused has nothing more to commit, and so has whoever hears of the refusal later. -/
theorem kept_of_refused_reply (r : Replica) {reply : AppendReply} (hrefused : reply.success = false) :
    let t := (r.handle (.appendReply reply)).1
    t.replica.log = r.log ∧ t.replica.commitIndex = r.commitIndex := by
  simp only [handle, Turn.handle, Turn.onAppendReply, Turn.noteReply]
  split
  · exact ⟨Turn.log_stepDown .., Turn.commitIndex_stepDown ..⟩
  · split
    · split
      · split
        · rw [hrefused]
          exact ⟨rfl, rfl⟩
        · exact ⟨rfl, rfl⟩
      · exact ⟨rfl, rfl⟩
    · exact ⟨rfl, rfl⟩

end Replica

namespace Life

/-- **A log changes only as it may.**  At any time in a replica's life, and whatever the next event is:

* The entries of the log carry the indexes at which they stand.
* Whoever leads before and after the event in one term has only added to its log.
* If the log changes, the event is a write-ahead or a batch of them, handled by a leader, or it is a request
  of a term that is not earlier, which the log agrees with in the entry before those that it ships; and up
  to there the log is what it was.
* A request is answered once, and an answer that refuses it goes with the old log and the old commit index.
  So does a refusal that a leader is sent. -/
theorem log_changes (life : Life) (k : Nat) (event : Event) :
    let r := life.state k
    let t := (r.handle event).1
    r.log.Indexed ∧ t.replica.log.Indexed ∧
      (r.role = .leader → t.replica.role = .leader → t.replica.term = r.term →
        r.log.entries <+: t.replica.log.entries) ∧
      (t.replica.log ≠ r.log →
        (r.role = .leader ∧
            ((∃ write, event = .writeAhead write) ∨ ∃ batch, event = .aggregatedWriteAhead batch)) ∨
          ∃ request ticket, event = .appendRequest request ticket ∧ r.term ≤ request.term ∧
            r.log.termAt? request.prevLogIndex = some request.prevLogTerm ∧
            t.replica.log.entries.take request.prevLogIndex =
              r.log.entries.take request.prevLogIndex) ∧
      (∀ request ticket, event = .appendRequest request ticket →
        ∃ reply, t.answers = [(ticket, .append reply)] ∧
          (reply.success = false →
            t.replica.log = r.log ∧ t.replica.commitIndex = r.commitIndex)) ∧
      (∀ reply, event = .appendReply reply → reply.success = false →
        t.replica.log = r.log ∧ t.replica.commitIndex = r.commitIndex) := by
  intro r t
  have hchange : r.Change event t.replica := (r.handles_handle event).change
  have hindexed : r.log.Indexed := life.indexed k
  refine ⟨hindexed, hchange.indexed hindexed, ?_, hchange.writes_or_merges, ?_, ?_⟩
  · intro _ hleads _
    exact hchange.isPrefix_of_inOffice (Or.inr hleads)
  · rintro request ticket rfl
    exact r.kept_of_refused_request request ticket
  · rintro reply rfl hrefused
    exact r.kept_of_refused_reply hrefused

end Life

end RaftReplica
