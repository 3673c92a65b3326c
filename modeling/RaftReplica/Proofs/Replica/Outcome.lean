import RaftReplica.Proofs.Replica.Change

/-!
# What the outside hears of an event

Besides what becomes of the replica itself (`RaftReplica.Proofs.Replica.Change`), handling an event may
commit entries, call peers and answer requests.  All of it can be read off the replica as the event
leaves it.

* `commits_handle`: the commit index only rises, for a leader to what a majority holds and for a
  follower to what its leader has committed of the entries just shipped, and what is put on the commit
  stream lies between the old index and the new one.
* `issues_of_mem_calls`: a candidate sends its peers its request for votes, a leader sends them
  stretches of its log, and nobody sends anything else.
* `answers_voteRequest` and `answers_appendRequest`: each request is answered once, and what a favourable
  answer says is true of the replica that gives it.  `appendRequest_cases` says all that comes of a request
  to append whose term is valid.
-/

namespace RaftReplica

namespace Replica

/-- What an event commits, with `r` the replica before it and the turn as it ends. -/
inductive Commits (r : Replica) : Event → Turn → Prop
  | none {event : Event} {t : Turn} (index : t.replica.commitIndex = r.commitIndex)
      (applied : t.replica.lastApplied = r.lastApplied) (stream : t.committed = []) :
      Commits r event t
  /-- A leader commits what a majority holds. -/
  | lead {event : Event} {t : Turn} (rises : r.commitIndex < t.replica.commitIndex)
      (applied : t.replica.lastApplied = max r.lastApplied t.replica.commitIndex)
      (stream : t.committed =
        (t.replica.log.entries.take t.replica.commitIndex).drop r.lastApplied)
      (leads : t.replica.role = .leader)
      (majority : t.replica.majorityIndex? = some t.replica.commitIndex)
      (present : t.replica.log.termAt? t.replica.commitIndex = some t.replica.term) :
      Commits r event t
  /-- A follower commits what its leader has committed of what it has shipped. -/
  | follow {request : AppendRequest} {ticket : Ticket} {t : Turn}
      (rises : r.commitIndex < t.replica.commitIndex)
      (applied : t.replica.lastApplied = max r.lastApplied t.replica.commitIndex)
      (stream : t.committed =
        (t.replica.log.entries.take t.replica.commitIndex).drop r.lastApplied)
      (agrees : r.log.termAt? request.prevLogIndex = some request.prevLogTerm)
      (index : t.replica.commitIndex =
        min request.leaderCommit (request.prevLogIndex + request.entries.length))
      (role : t.replica.role = .follower) (term : t.replica.term = request.term)
      (log : t.replica.log = (r.log.merge request.prevLogIndex request.entries).2) :
      Commits r (.appendRequest request ticket) t

/-- What a leader commits is what a majority holds, and ends in an entry of its term. -/
theorem Commits.majority_of_rises {r : Replica} {event : Event} {t : Turn} (h : r.Commits event t)
    (hrises : r.commitIndex < t.replica.commitIndex) (hleads : t.replica.role = .leader) :
    t.replica.majorityIndex? = some t.replica.commitIndex ∧
      t.replica.log.termAt? t.replica.commitIndex = some t.replica.term := by
  cases h with
  | none index => omega
  | lead _ _ _ _ majority present => exact ⟨majority, present⟩
  | follow _ _ _ _ _ role =>
    rw [role] at hleads
    cases hleads

/-- What a replica has to say to its peers: a candidate asks for votes, a leader ships entries. -/
inductive Issues (r : Replica) : Request → Prop
  | vote (stands : r.role = .candidate) : Issues r (.vote r.voteRequest)
  | append {next : Nat} {request : AppendRequest} (leads : r.role = .leader)
      (ships : r.appendRequest? next = some request) : Issues r (.append request)

end Replica

namespace Turn

open Replica (Commits)

variable (t : Turn)

/-! ## Write-aheads -/

@[simp] theorem calls_respond (write : WriteAhead) (answer : Answer) :
    (t.respond write answer).calls = t.calls := by
  unfold respond
  split <;> simp [Effect.calls]

@[simp] theorem committed_respond (write : WriteAhead) (answer : Answer) :
    (t.respond write answer).committed = t.committed := by
  unfold respond
  split <;> simp [Effect.commit?]

@[simp] theorem calls_foldl_writeOne (batch : List WriteAhead) :
    (batch.foldl writeOne t).calls = t.calls :=
  t.eq_of_foldl calls (by simp [writeOne]) batch

@[simp] theorem committed_foldl_writeOne (batch : List WriteAhead) :
    (batch.foldl writeOne t).committed = t.committed :=
  t.eq_of_foldl committed (by simp [writeOne]) batch

@[simp] theorem calls_foldl_refuseOne (batch : List WriteAhead) :
    (batch.foldl refuseOne t).calls = t.calls :=
  t.eq_of_foldl calls (by simp [refuseOne]) batch

@[simp] theorem committed_foldl_refuseOne (batch : List WriteAhead) :
    (batch.foldl refuseOne t).committed = t.committed :=
  t.eq_of_foldl committed (by simp [refuseOne]) batch

/-! ## What is committed -/

/-- Replicating commits nothing. -/
theorem commits_replicate {r : Replica} {event : Event} (h : r.Commits event t) :
    r.Commits event t.replicate := by
  have hstream := t.committed_replicate
  cases h with
  | none index applied stream => exact .none index applied (hstream.trans stream)
  | lead rises applied stream leads majority present =>
    exact .lead rises applied (hstream.trans stream) leads majority present
  | follow rises applied stream agrees index role term log =>
    exact .follow rises applied (hstream.trans stream) agrees index role term log

/-- A leader that has committed nothing yet in this turn commits what a majority holds. -/
theorem commits_advanceCommitIndex {r : Replica} (event : Event)
    (hindex : t.replica.commitIndex = r.commitIndex)
    (happlied : t.replica.lastApplied = r.lastApplied) (hstream : t.committed = [])
    (hleads : t.replica.role = .leader) : r.Commits event t.advanceCommitIndex := by
  rcases t.advanceCommitIndex_cases with h | ⟨index, hmajority, hrises, hpresent, h⟩
  · rw [h]
    exact .none hindex happlied hstream
  · rw [h]
    refine .lead ?_ ?_ ?_ hleads hmajority hpresent
    · rw [← hindex]
      exact hrises
    · rw [← happlied]
      rfl
    · rw [committed_commitTo, hstream, happlied]
      rfl

theorem commits_becomeLeader {r : Replica} (event : Event)
    (hindex : t.replica.commitIndex = r.commitIndex)
    (happlied : t.replica.lastApplied = r.lastApplied) (hstream : t.committed = []) :
    r.Commits event t.becomeLeader := by
  apply commits_replicate
  apply commits_advanceCommitIndex <;> simp [*]

theorem commits_onWriteAheads (event : Event) (batch : List WriteAhead)
    (hstream : t.committed = []) : t.replica.Commits event (t.onWriteAheads batch) := by
  unfold onWriteAheads
  split
  · rename_i hrole
    apply commits_replicate
    apply commits_advanceCommitIndex <;> simp [replica_foldl_writeOne, hstream, hrole]
  · exact .none (by simp) (by simp) (by simp [hstream])

theorem commits_onElectionTimeout (hstream : t.committed = []) :
    t.replica.Commits .electionTimeout t.onElectionTimeout.1 := by
  rcases t.onElectionTimeout_cases with
    h | ⟨-, ⟨cause, -, h⟩ | ⟨election, -, ⟨-, h⟩ | h⟩⟩
  · rw [h]
    exact .none rfl rfl hstream
  · rw [h]
    exact .none rfl rfl (by simp [hstream])
  · rw [h]
    apply commits_becomeLeader <;> simp [hstream]
  · rw [h]
    exact .none (by simp) (by simp) (by simp [hstream, Effect.commit?])

theorem commits_onVoteRequest (request : VoteRequest) (ticket : Ticket)
    (hstream : t.committed = []) :
    t.replica.Commits (.voteRequest request ticket) (t.onVoteRequest request ticket) := by
  rcases Nat.lt_or_ge request.term t.replica.term with hstale | hle
  · rw [t.onVoteRequest_of_lt ticket hstale]
    exact .none rfl rfl (by simp [hstream, Effect.commit?])
  · obtain ⟨-, -, -, hindex, happlied, -, -, hcommitted⟩ := t.kept_heed hle
    rw [t.onVoteRequest_of_le ticket hle]
    unfold decideVote
    split <;>
      exact .none (by simp [hindex]) (by simp [happlied])
        (by simp [hcommitted, hstream, Effect.commit?])

theorem commits_onVoteReply (reply : VoteReply) (hstream : t.committed = []) :
    t.replica.Commits (.voteReply reply) (t.onVoteReply reply) := by
  unfold onVoteReply countVote
  split
  · exact .none (by simp) (by simp) (by simp [hstream])
  · split
    · cases hvotes : t.replica.election with
      | none => exact .none rfl rfl hstream
      | some before =>
        cases hcounted : before.vote reply.remote with
        | error cause =>
          simp only [hcounted]
          exact .none rfl rfl hstream
        | ok result =>
          obtain ⟨passed, after⟩ := result
          simp only [hcounted]
          cases passed with
          | false => exact .none rfl rfl hstream
          | true => exact (t.update _).commits_becomeLeader _ rfl rfl hstream
    · exact .none rfl rfl hstream

@[simp] theorem committed_follow (request : AppendRequest) :
    (t.follow request).committed = t.committed := by
  unfold follow
  split <;> simp

theorem commits_onAppendRequest (request : AppendRequest) (ticket : Ticket)
    (hstream : t.committed = []) :
    t.replica.Commits (.appendRequest request ticket) (t.onAppendRequest request ticket) := by
  rcases Nat.lt_or_ge request.term t.replica.term with hstale | hle
  · rw [t.onAppendRequest_of_lt ticket hstale]
    exact .none rfl rfl (by simp [hstream, Effect.commit?])
  · obtain ⟨hrole, hterm, -, -, -, -, hlog, hindex, happlied⟩ := t.replica_follow hle
    rw [t.onAppendRequest_of_le ticket hle]
    rcases (t.follow request).acceptEntries_cases request with ⟨hagrees, h⟩ | ⟨-, h⟩
    · simp only [h, accept, commitBeyond]
      split
      · rename_i hrises
        simp only [replica_update, hindex] at hrises
        rw [hlog] at hagrees
        refine .follow ?_ ?_ ?_ hagrees ?_ ?_ ?_ ?_
        · simpa using hrises
        · simp [happlied]
        · simp [happlied, hstream, Effect.commit?]
        · simp
        · simpa using hrole
        · simpa using hterm
        · simp [hlog]
      · exact .none (by simp [hindex]) (by simp [happlied]) (by simp [hstream, Effect.commit?])
    · rw [h]
      exact .none hindex happlied (by simp [hstream, Effect.commit?])

theorem commits_onAppendReply (reply : AppendReply) (hstream : t.committed = []) :
    t.replica.Commits (.appendReply reply) (t.onAppendReply reply) := by
  unfold onAppendReply
  split
  · exact .none (by simp) (by simp) (by simp [hstream])
  · split
    · rename_i h
      cases hview : t.replica.progress with
      | none => exact .none rfl rfl hstream
      | some before =>
        simp only [noteReply]
        split
        · split
          · apply commits_advanceCommitIndex <;> simp [hstream, h.1]
          · exact .none rfl rfl hstream
        · exact .none rfl rfl hstream
    · exact .none rfl rfl hstream

/-! ## Who is called -/

/-- Replicating calls peers only, with append requests of a leader. -/
theorem issues_of_mem_calls_replicate (hquiet : t.calls = []) (hleads : t.replica.role = .leader)
    {seat : Seat} {request : Request} (h : (seat, request) ∈ t.replicate.calls) :
    seat ∈ t.replica.peers ∧ t.replica.Issues request := by
  rw [calls_replicate, hquiet, List.nil_append] at h
  obtain ⟨hseat, next, append, hships, rfl⟩ := mem_calls_replicationBroadcasts h
  exact ⟨hseat, .append hleads hships⟩

theorem issues_of_mem_calls_becomeLeader (hquiet : t.calls = []) {seat : Seat}
    {request : Request} (h : (seat, request) ∈ t.becomeLeader.calls) :
    seat ∈ t.becomeLeader.replica.peers ∧ t.becomeLeader.replica.Issues request := by
  unfold becomeLeader at h ⊢
  obtain ⟨commitIndex, lastApplied, hadvance⟩ :=
    (t.prepareLeader.settle .leader).exists_replica_advanceCommitIndex
  apply issues_of_mem_calls_replicate _ _ _ h
  · simp [hquiet]
  · simp [hadvance]

@[simp] theorem calls_accept (request : AppendRequest) : (t.accept request).calls = t.calls := by
  unfold accept commitBeyond
  split <;> simp

@[simp] theorem calls_follow (request : AppendRequest) :
    (t.follow request).calls = t.calls := by
  unfold follow
  split <;> simp

theorem issues_of_mem_calls_onWriteAheads (batch : List WriteAhead) (hquiet : t.calls = [])
    {seat : Seat} {request : Request} (h : (seat, request) ∈ (t.onWriteAheads batch).calls) :
    seat ∈ (t.onWriteAheads batch).replica.peers ∧
      (t.onWriteAheads batch).replica.Issues request := by
  unfold onWriteAheads at h ⊢
  split
  · rename_i hrole
    rw [if_pos hrole] at h
    obtain ⟨commitIndex, lastApplied, hadvance⟩ :=
      (batch.foldl writeOne t).exists_replica_advanceCommitIndex
    apply issues_of_mem_calls_replicate _ _ _ h
    · simp [hquiet]
    · simp [hadvance, replica_foldl_writeOne, hrole]
  · rename_i hrole
    rw [if_neg hrole, calls_foldl_refuseOne, hquiet] at h
    cases h

theorem issues_of_mem_calls_onElectionTimeout (hquiet : t.calls = []) {seat : Seat}
    {request : Request} (h : (seat, request) ∈ t.onElectionTimeout.1.calls) :
    seat ∈ t.onElectionTimeout.1.replica.peers ∧
      t.onElectionTimeout.1.replica.Issues request := by
  have hstand : ∀ election, (t.stand election).calls = [] := by
    intro election
    rw [calls_stand, hquiet]
  rcases t.onElectionTimeout_cases with
    heq | ⟨-, ⟨cause, -, heq⟩ | ⟨election, -, ⟨-, heq⟩ | heq⟩⟩
  · rw [heq, hquiet] at h
    cases h
  · rw [heq] at h
    simp [hquiet] at h
  · rw [heq] at h ⊢
    exact issues_of_mem_calls_becomeLeader _ (hstand election) h
  · rw [heq] at h ⊢
    rw [calls_emit, hstand, List.nil_append] at h
    obtain ⟨seat', hseat', hcall⟩ := List.mem_map.mp h
    obtain ⟨rfl, rfl⟩ := Prod.mk.inj hcall
    refine ⟨by simpa using hseat', ?_⟩
    rw [replica_emit]
    exact .vote (by simp)

theorem calls_onVoteRequest (request : VoteRequest) (ticket : Ticket) :
    (t.onVoteRequest request ticket).calls = t.calls := by
  rcases Nat.lt_or_ge request.term t.replica.term with hstale | hle
  · simp [t.onVoteRequest_of_lt ticket hstale, Effect.calls]
  · obtain ⟨-, -, -, -, -, hcalls, -, -⟩ := t.kept_heed hle
    rw [t.onVoteRequest_of_le ticket hle]
    unfold decideVote
    split <;> simp [hcalls, Effect.calls]

theorem issues_of_mem_calls_onVoteReply (reply : VoteReply) (hquiet : t.calls = [])
    {seat : Seat} {request : Request} (h : (seat, request) ∈ (t.onVoteReply reply).calls) :
    seat ∈ (t.onVoteReply reply).replica.peers ∧
      (t.onVoteReply reply).replica.Issues request := by
  unfold onVoteReply countVote at h ⊢
  split at h
  · rw [calls_stepDown, hquiet] at h
    cases h
  · rename_i hlater
    rw [if_neg hlater]
    split at h
    · rename_i hcounts
      rw [if_pos hcounts]
      cases hvotes : t.replica.election with
      | none =>
        simp only [hvotes, hquiet] at h
        cases h
      | some before =>
        cases hcounted : before.vote reply.remote with
        | error cause =>
          simp only [hvotes, hcounted, hquiet] at h
          cases h
        | ok result =>
          obtain ⟨passed, after⟩ := result
          cases passed with
          | false =>
            simp only [hvotes, hcounted] at h
            rw [if_neg Bool.false_ne_true, calls_update, hquiet] at h
            cases h
          | true =>
            simp only [hvotes, hcounted, if_true] at h ⊢
            exact issues_of_mem_calls_becomeLeader _ hquiet h
    · rw [hquiet] at h
      cases h

theorem calls_onAppendRequest (request : AppendRequest) (ticket : Ticket) :
    (t.onAppendRequest request ticket).calls = t.calls := by
  rcases Nat.lt_or_ge request.term t.replica.term with hstale | hle
  · simp [t.onAppendRequest_of_lt ticket hstale, Effect.calls]
  · rw [t.onAppendRequest_of_le ticket hle]
    rcases (t.follow request).acceptEntries_cases request with ⟨-, h⟩ | ⟨-, h⟩ <;>
      simp [h, Effect.calls]

theorem calls_onAppendReply (reply : AppendReply) : (t.onAppendReply reply).calls = t.calls := by
  unfold onAppendReply noteReply
  split
  · simp
  · split
    · split
      · split
        · split <;> simp
        · rfl
      · rfl
    · rfl

/-! ## Who is answered -/

@[simp] theorem answers_accept (request : AppendRequest) :
    (t.accept request).answers = t.answers := by
  unfold accept commitBeyond
  split <;> simp

@[simp] theorem answers_follow (request : AppendRequest) :
    (t.follow request).answers = t.answers := by
  unfold follow
  split <;> simp

theorem answers_onVoteReply (reply : VoteReply) : (t.onVoteReply reply).answers = t.answers := by
  unfold onVoteReply countVote
  split
  · simp
  · split
    · split
      · rfl
      · split
        · rfl
        · split <;> simp
    · rfl

theorem answers_onAppendReply (reply : AppendReply) :
    (t.onAppendReply reply).answers = t.answers := by
  unfold onAppendReply noteReply
  split
  · simp
  · split
    · split
      · split
        · split <;> simp
        · rfl
      · rfl
    · rfl

end Turn

namespace Replica

/-- **Calls go to peers, and carry what the role of the caller lets it say.** -/
theorem issues_of_mem_calls {r : Replica} {event : Event} {seat : Seat} {request : Request}
    (h : (seat, request) ∈ (r.handle event).1.calls) :
    seat ∈ (r.handle event).1.replica.peers ∧ (r.handle event).1.replica.Issues request := by
  have hquiet : (Turn.start r).calls = [] := rfl
  unfold handle Turn.handle at h ⊢
  cases event with
  | error message => cases h
  | writeAhead write => exact Turn.issues_of_mem_calls_onWriteAheads _ _ hquiet h
  | aggregatedWriteAhead batch => exact Turn.issues_of_mem_calls_onWriteAheads _ _ hquiet h
  | heartbeatTimeout =>
    simp only [Turn.onHeartbeatTimeout] at h ⊢
    split at h
    · rename_i hrole
      rw [if_pos hrole]
      exact Turn.issues_of_mem_calls_replicate _ hquiet hrole h
    · cases h
  | electionTimeout => exact Turn.issues_of_mem_calls_onElectionTimeout _ hquiet h
  | voteRequest request ticket =>
    simp only [Turn.calls_onVoteRequest, hquiet] at h
    cases h
  | voteReply reply => exact Turn.issues_of_mem_calls_onVoteReply _ _ hquiet h
  | appendRequest request ticket =>
    simp only [Turn.calls_onAppendRequest, hquiet] at h
    cases h
  | appendReply reply =>
    simp only [Turn.calls_onAppendReply, hquiet] at h
    cases h

/-- **What an event commits.** -/
theorem commits_handle (r : Replica) (event : Event) : r.Commits event (r.handle event).1 := by
  have hstream : (Turn.start r).committed = [] := rfl
  unfold handle Turn.handle
  cases event with
  | error message => exact .none rfl rfl rfl
  | writeAhead write => exact (Turn.start r).commits_onWriteAheads _ _ hstream
  | aggregatedWriteAhead batch => exact (Turn.start r).commits_onWriteAheads _ _ hstream
  | heartbeatTimeout =>
    simp only [Turn.onHeartbeatTimeout]
    split
    · exact Turn.commits_replicate _ (.none rfl rfl rfl)
    · exact .none rfl rfl rfl
  | electionTimeout => exact (Turn.start r).commits_onElectionTimeout hstream
  | voteRequest request ticket => exact (Turn.start r).commits_onVoteRequest _ _ hstream
  | voteReply reply => exact (Turn.start r).commits_onVoteReply _ hstream
  | appendRequest request ticket => exact (Turn.start r).commits_onAppendRequest _ _ hstream
  | appendReply reply => exact (Turn.start r).commits_onAppendReply _ hstream

/-! ## What is answered -/

/-- A request for a vote is answered once, in the term that the replica is then in, and a vote that
the answer grants has been given, to a member whose log is at least as up to date. -/
theorem answers_voteRequest (r : Replica) (request : VoteRequest) (ticket : Ticket) :
    let t := (r.handle (.voteRequest request ticket)).1
    ∃ granted, t.answers = [(ticket, .vote (t.replica.voteReply granted))] ∧
      (granted = true →
        t.replica.term = request.term ∧ t.replica.votedFor = some request.candidate ∧
          r.quorum.contains request.candidate = true ∧
          r.log.coveredBy request.lastLogTerm request.lastLogIndex = true) := by
  have hquiet : (Turn.start r).answers = [] := rfl
  have hstart : (Turn.start r).replica = r := rfl
  simp only [handle, Turn.handle]
  rcases Nat.lt_or_ge request.term r.term with hstale | hle
  · refine ⟨false, ?_, by simp⟩
    rw [(Turn.start r).onVoteRequest_of_lt ticket hstale]
    simp [hquiet, Effect.answer?]
  · rw [(Turn.start r).onVoteRequest_of_le ticket hle]
    obtain ⟨hterm, hquorum, hlog, -, -, -, hanswers, -⟩ := (Turn.start r).kept_heed hle
    generalize (Turn.start r).heed request.term = heeded at hquorum hlog hterm hanswers
    unfold Turn.decideVote
    split
    · rename_i hgrants
      simp only [grants, hquorum, hlog, hstart, Bool.and_eq_true] at hgrants
      obtain ⟨⟨-, hmember⟩, hcovered⟩ := hgrants
      refine ⟨true, ?_, fun _ => ⟨?_, ?_, hmember, hcovered⟩⟩ <;>
        simp [hanswers, hquiet, hterm, Effect.answer?]
    · exact ⟨false, by simp [hanswers, hquiet, Effect.answer?], by simp⟩

/-- **What comes of a valid request.**  The replica follows in the term of the request.  Either its log
agrees with the request and has merged what is shipped, or the request is refused with the last index, and
log and commit index are left alone. -/
theorem appendRequest_cases (r : Replica) {request : AppendRequest} (ticket : Ticket)
    (hvalid : r.term ≤ request.term) :
    let t := (r.handle (.appendRequest request ticket)).1
    (t.replica.name = r.name ∧ t.replica.term = request.term) ∧
      ((r.log.termAt? request.prevLogIndex = some request.prevLogTerm ∧
          t.replica.log = (r.log.merge request.prevLogIndex request.entries).2 ∧
          t.answers = [(ticket, .append (t.replica.appendReply true
            (request.prevLogIndex + request.entries.length)))]) ∨
        (r.log.termAt? request.prevLogIndex ≠ some request.prevLogTerm ∧
          t.replica.log = r.log ∧ t.replica.commitIndex = r.commitIndex ∧
          t.answers = [(ticket, .append (t.replica.appendReply false r.log.lastIndex))])) := by
  have hquiet : (Turn.start r).answers = [] := rfl
  have hstart : (Turn.start r).replica = r := rfl
  simp only [handle, Turn.handle]
  obtain ⟨-, hterm, -, hname, -, -, hlog, hindex, -⟩ := (Turn.start r).replica_follow hvalid
  rw [(Turn.start r).onAppendRequest_of_le ticket hvalid]
  rcases ((Turn.start r).follow request).acceptEntries_cases request with ⟨hagrees, h⟩ | ⟨hdiffers, h⟩
  · obtain ⟨commitIndex, lastApplied, haccept⟩ :=
      ((Turn.start r).follow request).exists_replica_accept request
    rw [hlog, hstart] at hagrees
    refine ⟨?_, Or.inl ⟨hagrees, ?_, by simp [h, hquiet, Effect.answer?]⟩⟩
    · simp only [h, Turn.replica_emit, haccept]
      exact ⟨hname, hterm⟩
    · simp only [h, Turn.replica_emit, haccept, hlog, hstart]
  · rw [hlog, hstart] at hdiffers
    refine ⟨?_, Or.inr ⟨hdiffers, ?_, ?_, ?_⟩⟩
    · simp only [h, Turn.replica_emit]
      exact ⟨hname, hterm⟩
    · simp only [h, Turn.replica_emit]
      exact hlog
    · simp only [h, Turn.replica_emit]
      exact hindex
    · rw [hstart] at hlog
      simp [h, hquiet, Effect.answer?, hlog]

/-- A request to append is answered once, in the term that the replica is then in, and a success means
that the logs agreed and the log has merged what was shipped. -/
theorem answers_appendRequest (r : Replica) (request : AppendRequest) (ticket : Ticket) :
    let t := (r.handle (.appendRequest request ticket)).1
    ∃ success index, t.answers = [(ticket, .append (t.replica.appendReply success index))] ∧
      (success = true →
        r.term ≤ request.term ∧
          r.log.termAt? request.prevLogIndex = some request.prevLogTerm ∧
          index = request.prevLogIndex + request.entries.length ∧
          t.replica.term = request.term ∧
          t.replica.log = (r.log.merge request.prevLogIndex request.entries).2) := by
  intro t
  rcases Nat.lt_or_ge request.term r.term with hstale | hvalid
  · have hturn : t = (Turn.start r).emit
        (.answer ticket (.append (r.appendReply false r.log.lastIndex))) :=
      (Turn.start r).onAppendRequest_of_lt ticket hstale
    rw [hturn]
    exact ⟨false, r.log.lastIndex, rfl, nofun⟩
  · obtain ⟨⟨-, hterm⟩, ⟨hagrees, hlog, hanswers⟩ | ⟨-, -, -, hanswers⟩⟩ :=
      r.appendRequest_cases ticket hvalid
    · exact ⟨true, _, hanswers, fun _ => ⟨hvalid, hagrees, rfl, hterm, hlog⟩⟩
    · exact ⟨false, _, hanswers, nofun⟩

/-- Nobody waits for what is made of a reply. -/
theorem answers_ofReply (r : Replica) (reply : Reply) :
    (r.handle (.ofReply reply)).1.answers = [] := by
  cases reply with
  | vote reply => simp [handle, Turn.handle, Event.ofReply, Turn.answers_onVoteReply]
  | append reply => simp [handle, Turn.handle, Event.ofReply, Turn.answers_onAppendReply]

end Replica

end RaftReplica
