import RaftReplica.Proofs.Log.Append
import RaftReplica.Proofs.Replica.Turn

/-!
# What handling an event makes of a replica

`Change` lists, once for all, what an event can do to the role, term, vote, log, election and view of
the peers of the replica that handles it.  `handles_handle` says that nothing else happens.  Whatever is
to hold of a replica along a run follows from the cases of `Change`.  What is committed is left to
`RaftReplica.Proofs.Replica.Outcome`.

* A replica stands for election, counts votes and wins (`stand`, `count`, `win`, `winAlone`), or cannot
  call an election at all (`standInVain`).
* It votes for others (`grant`) and follows later terms (`follow`).
* A leader writes and takes note of replies (`write`, `note`).
* A follower takes over what a leader ships, or does not (`accept`, `refuse`).
-/

namespace RaftReplica

namespace Replica

/-- One member of a cluster at two times: its name, its quorum and its peers are its own for good. -/
structure SameMember (r r' : Replica) : Prop where
  name : r'.name = r.name
  quorum : r'.quorum = r.quorum
  peers : r'.peers = r.peers

theorem SameMember.refl (r : Replica) : r.SameMember r := ⟨rfl, rfl, rfl⟩

/-- What an event makes of the replica that handles it. -/
inductive Change (r : Replica) : Event → Replica → Prop
  | rest {event : Event} {r' : Replica} (role : r'.role = r.role) (term : r'.term = r.term)
      (vote : r'.votedFor = r.votedFor) (log : r'.log = r.log) (election : r'.election = r.election)
      (progress : r'.progress = r.progress) : Change r event r'
  | write {event : Event} {r' : Replica} (leads : r.role = .leader) (role : r'.role = r.role)
      (term : r'.term = r.term) (vote : r'.votedFor = r.votedFor)
      (log : r'.log = r.log.appendAll r.term (event.writes.map (·.data)))
      (progress : r'.progress = r.progress) : Change r event r'
  /-- A message shows that there is a later term. -/
  | follow {event : Event} {r' : Replica} (later : r.term < r'.term) (role : r'.role = .follower)
      (vote : r'.votedFor = none) (log : r'.log = r.log) : Change r event r'
  | grant {request : VoteRequest} {ticket : Ticket} {r' : Replica}
      (unvoted : r.term < request.term ∨ r.term = request.term ∧
        (r.votedFor = none ∨ r.votedFor = some request.candidate))
      (member : r.quorum.contains request.candidate = true)
      (covered : r.log.coveredBy request.lastLogTerm request.lastLogIndex = true)
      (role : r'.role = .follower ∨ r'.role = r.role ∧ r'.term = r.term ∧
        r'.election = r.election ∧ r'.progress = r.progress)
      (term : r'.term = request.term) (vote : r'.votedFor = some request.candidate)
      (log : r'.log = r.log) : Change r (.voteRequest request ticket) r'
  | stand {election : Election} {r' : Replica} (called : r.quorum.election = .ok election)
      (role : r'.role = .candidate) (term : r'.term = r.term + 1)
      (vote : r'.votedFor = some r.name) (log : r'.log = r.log)
      (votes : r'.election = some (Turn.castOwnVote election r.name)) :
      Change r .electionTimeout r'
  /-- There is nobody to elect, or more than can be counted. -/
  | standInVain {r' : Replica} (role : r'.role = r.role) (idle : r.role ≠ .leader)
      (term : r'.term = r.term + 1) (vote : r'.votedFor = some r.name) (log : r'.log = r.log)
      (election : r'.election = none) : Change r .electionTimeout r'
  | count {reply : VoteReply} {before after : Election} {r' : Replica}
      (stands : r.role = .candidate) (present : reply.term = r.term)
      (granted : reply.granted = true) (votes : r.election = some before)
      (counted : before.vote reply.remote = .ok (false, after))
      (role : r'.role = r.role) (term : r'.term = r.term) (vote : r'.votedFor = r.votedFor)
      (log : r'.log = r.log) (votes' : r'.election = some after) : Change r (.voteReply reply) r'
  | win {reply : VoteReply} {before after : Election} {r' : Replica}
      (stands : r.role = .candidate) (present : reply.term = r.term)
      (granted : reply.granted = true) (votes : r.election = some before)
      (counted : before.vote reply.remote = .ok (true, after))
      (role : r'.role = .leader) (term : r'.term = r.term) (vote : r'.votedFor = r.votedFor)
      (log : r'.log = r.log)
      (progress : r'.progress = some (Progress.start r.peers.names r.log.lastIndex)) :
      Change r (.voteReply reply) r'
  /-- One's own vote is enough. -/
  | winAlone {election : Election} {r' : Replica} (called : r.quorum.election = .ok election)
      (passed : (Turn.castOwnVote election r.name).passed = true)
      (role : r'.role = .leader) (term : r'.term = r.term + 1) (vote : r'.votedFor = some r.name)
      (log : r'.log = r.log)
      (progress : r'.progress = some (Progress.start r.peers.names r.log.lastIndex)) :
      Change r .electionTimeout r'
  | accept {request : AppendRequest} {ticket : Ticket} {r' : Replica}
      (valid : r.term ≤ request.term)
      (agrees : r.log.termAt? request.prevLogIndex = some request.prevLogTerm)
      (role : r'.role = .follower) (term : r'.term = request.term)
      (vote : r'.votedFor = if r.term < request.term then none else r.votedFor)
      (log : r'.log = (r.log.merge request.prevLogIndex request.entries).2) :
      Change r (.appendRequest request ticket) r'
  | refuse {request : AppendRequest} {ticket : Ticket} {r' : Replica}
      (valid : r.term ≤ request.term) (role : r'.role = .follower) (term : r'.term = request.term)
      (vote : r'.votedFor = if r.term < request.term then none else r.votedFor)
      (log : r'.log = r.log) : Change r (.appendRequest request ticket) r'
  | note {reply : AppendReply} {before : Progress} {r' : Replica} (leads : r.role = .leader)
      (present : reply.term = r.term) (view : r.progress = some before)
      (role : r'.role = r.role) (term : r'.term = r.term) (vote : r'.votedFor = r.votedFor)
      (log : r'.log = r.log)
      (progress : r'.progress = some (
        if reply.success then before.succeed reply.remote (min reply.index r.log.lastIndex)
        else before.fail reply.remote (min reply.index r.log.lastIndex))) :
      Change r (.appendReply reply) r'

/-- What an event makes of one and the same member. -/
structure Handles (r : Replica) (event : Event) (r' : Replica) : Prop where
  same : r.SameMember r'
  change : r.Change event r'

theorem Handles.refl (r : Replica) (event : Event) : r.Handles event r :=
  ⟨.refl r, .rest rfl rfl rfl rfl rfl rfl⟩

end Replica

namespace Turn

open Replica (SameMember)

variable (t : Turn)

/-! ## Write-aheads -/

@[simp] theorem replica_respond (write : WriteAhead) (answer : Answer) :
    (t.respond write answer).replica = t.replica := by
  unfold respond
  split <;> rfl

theorem replica_foldl_writeOne (batch : List WriteAhead) :
    (batch.foldl writeOne t).replica =
      { t.replica with log := t.replica.log.appendAll t.replica.term (batch.map (·.data)) } := by
  induction batch generalizing t with
  | nil => simp
  | cons write rest ih =>
    rw [List.foldl_cons, ih, List.map_cons, Log.appendAll_cons]
    simp [writeOne]

/-- What no single write-ahead changes, a batch does not change either. -/
theorem eq_of_foldl {α : Type} (view : Turn → α) {handleOne : Turn → WriteAhead → Turn}
    (hone : ∀ t write, view (handleOne t write) = view t) (batch : List WriteAhead) :
    view (batch.foldl handleOne t) = view t := by
  induction batch generalizing t with
  | nil => rfl
  | cons write rest ih => rw [List.foldl_cons, ih, hone]

@[simp] theorem replica_foldl_refuseOne (batch : List WriteAhead) :
    (batch.foldl refuseOne t).replica = t.replica :=
  t.eq_of_foldl Turn.replica (by simp [refuseOne]) batch

/-- A leader puts a batch behind its log; besides it moves the commit index and what is applied, and
nothing else. -/
theorem exists_replica_onWriteAheads (batch : List WriteAhead) (hleads : t.replica.role = .leader) :
    ∃ commitIndex lastApplied,
      (t.onWriteAheads batch).replica =
        { t.replica with
          log := t.replica.log.appendAll t.replica.term (batch.map (·.data))
          commitIndex, lastApplied } := by
  obtain ⟨commitIndex, lastApplied, h⟩ := (batch.foldl writeOne t).exists_replica_advanceCommitIndex
  refine ⟨commitIndex, lastApplied, ?_⟩
  rw [onWriteAheads, if_pos hleads, replica_replicate, h, replica_foldl_writeOne]

theorem onWriteAheads_of_not_leader (batch : List WriteAhead) (hidle : t.replica.role ≠ .leader) :
    t.onWriteAheads batch = batch.foldl refuseOne t := if_neg hidle

theorem onWriteAheads_handles (event : Event) :
    t.replica.Handles event (t.onWriteAheads event.writes).replica := by
  by_cases hrole : t.replica.role = .leader
  · obtain ⟨commitIndex, lastApplied, h⟩ := t.exists_replica_onWriteAheads event.writes hrole
    rw [h]
    exact ⟨⟨rfl, rfl, rfl⟩, .write hrole rfl rfl rfl rfl rfl⟩
  · rw [t.onWriteAheads_of_not_leader _ hrole, replica_foldl_refuseOne]
    exact .refl _ _

/-! ## Standing for election -/

/-- The next term, with a vote for oneself and nobody to follow. -/
def enterNextTerm : Turn :=
  t.update fun r => { r with term := r.term + 1, votedFor := some r.name, leader := none }

/-- A candidate of the next term, with its own vote in the election. -/
def stand (election : Election) : Turn :=
  (t.enterNextTerm.leaveOffice.update fun r =>
    { r with election := some (castOwnVote election r.name) }).settle .candidate

@[simp] theorem replica_enterNextTerm :
    t.enterNextTerm.replica =
      { t.replica with
        term := t.replica.term + 1
        votedFor := some t.replica.name
        leader := none } := rfl

@[simp] theorem calls_enterNextTerm : t.enterNextTerm.calls = t.calls := rfl

@[simp] theorem answers_enterNextTerm : t.enterNextTerm.answers = t.answers := rfl

@[simp] theorem committed_enterNextTerm : t.enterNextTerm.committed = t.committed := rfl

@[simp] theorem replica_stand (election : Election) :
    (t.stand election).replica =
      { t.replica with
        role := .candidate
        term := t.replica.term + 1
        votedFor := some t.replica.name
        leader := none
        election := some (castOwnVote election t.replica.name)
        progress := none
        published := ⟨.candidate, t.replica.term + 1, none⟩ } := by
  simp [stand]

/-- So far nobody hears of the candidacy. -/
@[simp] theorem calls_stand (election : Election) : (t.stand election).calls = t.calls := by
  simp [stand]

@[simp] theorem answers_stand (election : Election) : (t.stand election).answers = t.answers := by
  simp [stand]

@[simp] theorem committed_stand (election : Election) :
    (t.stand election).committed = t.committed := by
  simp [stand]

/-- What comes of an election timeout: nothing, a new term without an election, leadership at once, or
a candidacy that all peers are told of. -/
theorem onElectionTimeout_cases :
    t.onElectionTimeout.1 = t ∨
      t.replica.role ≠ .leader ∧
        ((∃ cause, t.replica.quorum.election = .error cause ∧
            t.onElectionTimeout.1 = t.enterNextTerm.leaveOffice) ∨
          ∃ election, t.replica.quorum.election = .ok election ∧
            ((castOwnVote election t.replica.name).passed = true ∧
                t.onElectionTimeout.1 = (t.stand election).becomeLeader ∨
              t.onElectionTimeout.1 = (t.stand election).emit
                (.broadcast t.replica.peers (.vote (t.stand election).replica.voteRequest)))) := by
  unfold onElectionTimeout
  split
  · rename_i hrole
    have hidle : t.replica.role ≠ .leader := by
      rcases hrole with h | h <;> simp [h]
    cases hterm : succ? t.replica.term with
    | none => exact Or.inl rfl
    | some term =>
      have hnext : term = t.replica.term + 1 := by
        unfold succ? at hterm
        split at hterm <;> simp_all
      subst hnext
      refine Or.inr ⟨hidle, ?_⟩
      cases hcalled : t.replica.quorum.election with
      | error cause =>
        refine Or.inl ⟨cause, rfl, ?_⟩
        simp [enter, prepareCandidate, hcalled, enterNextTerm]
        rfl
      | ok election =>
        refine Or.inr ⟨election, rfl, ?_⟩
        cases hpassed : (castOwnVote election t.replica.name).passed with
        | true =>
          left
          simp [enter, prepareCandidate, hcalled, hpassed, stand, enterNextTerm]
          rfl
        | false =>
          right
          simp [enter, prepareCandidate, hcalled, hpassed, stand, enterNextTerm]
          rfl
  · exact Or.inl rfl

/-- A quorum that holds no election has the timeout fail. -/
theorem onElectionTimeout_fails {t : Turn} {cause : ElectionError}
    (hrole : t.replica.role = .follower ∨ t.replica.role = .candidate)
    (hcalled : t.replica.quorum.election = .error cause) : t.onElectionTimeout.2 ≠ .ok () := by
  rw [onElectionTimeout, if_pos hrole]
  cases hterm : succ? t.replica.term with
  | none => simp
  | some term => simp [enter, prepareCandidate, hcalled]

theorem onElectionTimeout_handles :
    t.replica.Handles .electionTimeout t.onElectionTimeout.1.replica := by
  rcases t.onElectionTimeout_cases with
    h | ⟨hidle, ⟨cause, -, h⟩ | ⟨election, hcalled, ⟨hpassed, h⟩ | h⟩⟩
  · rw [h]
    exact .refl _ _
  · rw [h]
    exact ⟨⟨rfl, rfl, rfl⟩, .standInVain rfl hidle rfl rfl rfl rfl⟩
  · obtain ⟨commitIndex, lastApplied, hleader⟩ :=
      (t.stand election).exists_replica_becomeLeader
    rw [h, hleader, replica_stand]
    exact ⟨⟨rfl, rfl, rfl⟩, .winAlone hcalled hpassed rfl rfl rfl rfl rfl⟩
  · rw [h, replica_emit, replica_stand]
    exact ⟨⟨rfl, rfl, rfl⟩, .stand hcalled rfl rfl rfl rfl rfl⟩

/-! ## Voting -/

theorem stepDown_handles {term : Nat} (leader : Option String) (event : Event)
    (h : t.replica.term < term) : t.replica.Handles event (t.stepDown term leader).replica := by
  refine ⟨⟨name_stepDown .., quorum_stepDown .., peers_stepDown ..⟩,
    .follow ?_ (role_stepDown ..) ?_ (log_stepDown ..)⟩
  · rw [term_stepDown]
    omega
  · rw [votedFor_stepDown, if_pos h]

/-- Takes over the term of a request for votes, if it is a later one. -/
def heed (term : Nat) : Turn := if t.replica.term < term then t.stepDown term none else t

/-- Heeding a term that is not earlier leaves alone the log and what has been committed, and nobody
hears of it. -/
theorem kept_heed {term : Nat} (h : t.replica.term ≤ term) :
    let heeded := t.heed term
    heeded.replica.term = term ∧ heeded.replica.quorum = t.replica.quorum ∧
      heeded.replica.log = t.replica.log ∧
      heeded.replica.commitIndex = t.replica.commitIndex ∧
      heeded.replica.lastApplied = t.replica.lastApplied ∧ heeded.calls = t.calls ∧
      heeded.answers = t.answers ∧ heeded.committed = t.committed := by
  unfold heed
  by_cases hlater : t.replica.term < term
  · have hmax : max t.replica.term term = term := Nat.max_eq_right h
    simp [hlater, hmax]
  · have hsame : t.replica.term = term := Nat.le_antisymm h (Nat.not_lt.mp hlater)
    simp [hsame]

theorem onVoteRequest_of_lt {request : VoteRequest} (ticket : Ticket)
    (h : request.term < t.replica.term) :
    t.onVoteRequest request ticket =
      t.emit (.answer ticket (.vote (t.replica.voteReply false))) := by
  simp [onVoteRequest, h]

theorem onVoteRequest_of_le {request : VoteRequest} (ticket : Ticket)
    (h : t.replica.term ≤ request.term) :
    t.onVoteRequest request ticket =
      let decided := (t.heed request.term).decideVote request
      decided.1.emit (.answer ticket (.vote (decided.1.replica.voteReply decided.2))) := by
  simp [onVoteRequest, heed, Nat.not_lt.mpr h]

theorem onVoteRequest_handles (request : VoteRequest) (ticket : Ticket) :
    t.replica.Handles (.voteRequest request ticket) (t.onVoteRequest request ticket).replica := by
  rcases Nat.lt_or_ge request.term t.replica.term with hstale | hle
  · rw [t.onVoteRequest_of_lt ticket hstale, replica_emit]
    exact .refl _ _
  · rw [t.onVoteRequest_of_le ticket hle]
    simp only [replica_emit]
    unfold decideVote heed
    by_cases hlater : t.replica.term < request.term
    · simp only [if_pos hlater]
      split
      · rename_i hgrants
        simp only [Replica.grants, quorum_stepDown, log_stepDown, Bool.and_eq_true] at hgrants
        refine ⟨⟨by simp, by simp, by simp⟩,
          .grant (Or.inl hlater) hgrants.1.2 hgrants.2 ?_ ?_ ?_ ?_⟩
        · simp
        · simp only [replica_interruptTicker, replica_update, term_stepDown]
          omega
        · simp
        · simp
      · exact t.stepDown_handles none _ hlater
    · have hterm : t.replica.term = request.term := by omega
      simp only [if_neg hlater]
      split
      · rename_i hgrants
        simp only [Replica.grants, Bool.and_eq_true, Bool.or_eq_true, decide_eq_true_eq]
          at hgrants
        refine ⟨⟨by simp, by simp, by simp⟩,
          .grant (Or.inr ⟨hterm, hgrants.1.1⟩) hgrants.1.2 hgrants.2 (Or.inr ?_) ?_ ?_ ?_⟩
        · simp
        · simp [hterm]
        · simp
        · simp
      · exact .refl _ _

/-- A candidate comes to lead with the vote that passes its election. -/
theorem onVoteReply_of_passes {reply : VoteReply} (hstands : t.replica.role = .candidate)
    (hpresent : t.replica.term = reply.term) (hgranted : reply.granted = true)
    (hpasses : (t.replica.election.bind fun votes => (votes.vote reply.remote).toOption).any
      (·.1) = true) : t.onVoteReply reply = t.becomeLeader := by
  rw [onVoteReply, if_neg (by omega), if_pos ⟨hstands, hpresent.symm, hgranted⟩, countVote]
  cases hvotes : t.replica.election with
  | none => simp [hvotes] at hpasses
  | some votes =>
    cases hcounted : votes.vote reply.remote with
    | error cause => simp [hvotes, hcounted, Except.toOption] at hpasses
    | ok result =>
      obtain ⟨passed, after⟩ := result
      obtain rfl : passed = true := by simpa [hvotes, hcounted, Except.toOption] using hpasses
      simp only [hcounted]
      rfl

theorem onVoteReply_handles (reply : VoteReply) :
    t.replica.Handles (.voteReply reply) (t.onVoteReply reply).replica := by
  unfold onVoteReply
  split
  · rename_i hlater
    exact t.stepDown_handles none _ hlater
  · split
    · rename_i h
      obtain ⟨hstands, hpresent, hgranted⟩ := h
      unfold countVote
      cases hvotes : t.replica.election with
      | none => exact .refl _ _
      | some before =>
        cases hcounted : before.vote reply.remote with
        | error cause =>
          simp only [hcounted]
          exact .refl _ _
        | ok result =>
          obtain ⟨passed, after⟩ := result
          simp only [hcounted]
          cases passed with
          | false =>
            exact ⟨⟨rfl, rfl, rfl⟩,
              .count hstands hpresent hgranted hvotes hcounted rfl rfl rfl rfl rfl⟩
          | true =>
            obtain ⟨commitIndex, lastApplied, hleader⟩ :=
              (t.update fun r => { r with election := some after }).exists_replica_becomeLeader
            simp only [if_true, hleader]
            exact ⟨⟨rfl, rfl, rfl⟩,
              .win hstands hpresent hgranted hvotes hcounted rfl rfl rfl rfl rfl⟩
    · exact .refl _ _

/-! ## Entries from a leader -/

/-- Follows the leader of an append request whose term is valid. -/
def follow (request : AppendRequest) : Turn :=
  (if t.replica.changesAllegiance request then t.stepDown request.term (some request.leader)
    else t).interruptTicker .election

theorem onAppendRequest_of_lt {request : AppendRequest} (ticket : Ticket)
    (h : request.term < t.replica.term) :
    t.onAppendRequest request ticket = t.emit (.answer ticket
      (.append (t.replica.appendReply false t.replica.log.lastIndex))) := by
  simp [onAppendRequest, h]

theorem onAppendRequest_of_le {request : AppendRequest} (ticket : Ticket)
    (h : t.replica.term ≤ request.term) :
    t.onAppendRequest request ticket =
      let accepted := (t.follow request).acceptEntries request
      accepted.1.emit (.answer ticket (.append accepted.2)) := by
  simp [onAppendRequest, follow, Nat.not_lt.mpr h]

/-- Whoever follows a valid request is a follower in its term, and has lost its vote only to a later
term. -/
theorem replica_follow {request : AppendRequest} (h : t.replica.term ≤ request.term) :
    let r := (t.follow request).replica
    r.role = .follower ∧ r.term = request.term ∧
      r.votedFor = (if t.replica.term < request.term then none else t.replica.votedFor) ∧
      r.name = t.replica.name ∧ r.quorum = t.replica.quorum ∧ r.peers = t.replica.peers ∧
      r.log = t.replica.log ∧ r.commitIndex = t.replica.commitIndex ∧
      r.lastApplied = t.replica.lastApplied := by
  unfold follow
  by_cases hchange : t.replica.changesAllegiance request = true
  · simp [hchange]
    omega
  · rw [if_neg hchange, replica_interruptTicker]
    simp only [Replica.changesAllegiance, Bool.or_eq_true, decide_eq_true_eq, not_or,
      Decidable.not_not] at hchange
    obtain ⟨⟨hterm, hrole⟩, -⟩ := hchange
    exact ⟨hrole, by omega, by rw [if_neg hterm], rfl, rfl, rfl, rfl, rfl, rfl⟩

/-- Commits up to an index that lies beyond what is committed. -/
def commitBeyond (index : Nat) : Turn :=
  if t.replica.commitIndex < index then t.commitTo index else t

/-- Takes over what the leader ships, and with it what the leader has committed of that. -/
def accept (request : AppendRequest) : Turn :=
  (t.update fun r =>
    { r with log := (r.log.merge request.prevLogIndex request.entries).2 }).commitBeyond
      (min request.leaderCommit (request.prevLogIndex + request.entries.length))

/-- Accepting puts the merged log in place; besides it moves the commit index and what is applied,
and nothing else. -/
theorem exists_replica_accept (request : AppendRequest) :
    ∃ commitIndex lastApplied,
      (t.accept request).replica =
        { t.replica with
          log := (t.replica.log.merge request.prevLogIndex request.entries).2
          commitIndex, lastApplied } := by
  unfold accept commitBeyond
  split
  · exact ⟨_, _, rfl⟩
  · exact ⟨_, _, rfl⟩

/-- What comes of a valid request: the entries are accepted, or the log does not agree with the leader
on the entry before them. -/
theorem acceptEntries_cases (request : AppendRequest) :
    (t.replica.log.termAt? request.prevLogIndex = some request.prevLogTerm ∧
        t.acceptEntries request =
          (t.accept request, (t.accept request).replica.appendReply true
            (request.prevLogIndex + request.entries.length))) ∨
      t.replica.log.termAt? request.prevLogIndex ≠ some request.prevLogTerm ∧
        t.acceptEntries request =
          (t, t.replica.appendReply false t.replica.log.lastIndex) := by
  unfold acceptEntries
  split
  · rename_i h
    refine Or.inl ⟨h, ?_⟩
    simp only [accept, ← Log.merge_fst t.replica.log request.prevLogIndex request.entries]
    rfl
  · rename_i h
    exact Or.inr ⟨h, rfl⟩

theorem onAppendRequest_handles (request : AppendRequest) (ticket : Ticket) :
    t.replica.Handles (.appendRequest request ticket)
      (t.onAppendRequest request ticket).replica := by
  rcases Nat.lt_or_ge request.term t.replica.term with hstale | hle
  · rw [t.onAppendRequest_of_lt ticket hstale, replica_emit]
    exact .refl _ _
  · obtain ⟨hrole, hterm, hvote, hname, hquorum, hpeers, hlog, -, -⟩ := t.replica_follow hle
    rw [t.onAppendRequest_of_le ticket hle]
    simp only [replica_emit]
    rcases (t.follow request).acceptEntries_cases request with ⟨hagrees, h⟩ | ⟨-, h⟩
    · obtain ⟨commitIndex, lastApplied, haccept⟩ := (t.follow request).exists_replica_accept request
      rw [h, haccept]
      rw [hlog] at hagrees
      exact ⟨⟨hname, hquorum, hpeers⟩, .accept hle hagrees hrole hterm hvote (by simp [hlog])⟩
    · rw [h]
      exact ⟨⟨hname, hquorum, hpeers⟩, .refuse hle hrole hterm hvote hlog⟩

/-! ## Replies to a leader -/

/-- A leader notes the success of a peer that it has a record of, and commits what it may. -/
theorem onAppendReply_of_success {reply : AppendReply} (hleads : t.replica.role = .leader)
    (hpresent : t.replica.term = reply.term) (hsuccess : reply.success = true)
    (hknown : t.replica.progress.any (·.contains reply.remote) = true) :
    t.onAppendReply reply =
      (t.update fun r => { r with
        progress := r.progress.map fun progress =>
          progress.succeed reply.remote (min reply.index r.log.lastIndex) }).advanceCommitIndex := by
  rw [onAppendReply, if_neg (by omega), if_pos ⟨hleads, hpresent.symm⟩]
  cases hview : t.replica.progress with
  | none => simp [hview] at hknown
  | some progress =>
    have hcontains : progress.contains reply.remote = true := by simpa [hview] using hknown
    simp [noteReply, hcontains, hsuccess, update, hview]

/-- A leader that is refused by a peer that it has a record of goes back in its own log, and does no more. -/
theorem onAppendReply_of_failure {reply : AppendReply} (hleads : t.replica.role = .leader)
    (hpresent : t.replica.term = reply.term) (hfailure : reply.success = false)
    (hknown : t.replica.progress.any (·.contains reply.remote) = true) :
    t.onAppendReply reply =
      t.update fun r => { r with
        progress := r.progress.map fun progress =>
          progress.fail reply.remote (min reply.index r.log.lastIndex) } := by
  rw [onAppendReply, if_neg (by omega), if_pos ⟨hleads, hpresent.symm⟩]
  cases hview : t.replica.progress with
  | none => simp [hview] at hknown
  | some progress =>
    have hcontains : progress.contains reply.remote = true := by simpa [hview] using hknown
    simp [noteReply, hcontains, hfailure, update, hview]

theorem onAppendReply_handles (reply : AppendReply) :
    t.replica.Handles (.appendReply reply) (t.onAppendReply reply).replica := by
  unfold onAppendReply
  split
  · rename_i hlater
    exact t.stepDown_handles none _ hlater
  · split
    · rename_i h
      obtain ⟨hleads, hpresent⟩ := h
      cases hview : t.replica.progress with
      | none => exact .refl _ _
      | some before =>
        simp only [noteReply]
        split
        · split
          · rename_i hsuccess
            obtain ⟨commitIndex, lastApplied, hadvance⟩ := exists_replica_advanceCommitIndex
              (t.update fun r => { r with
                progress := some (before.succeed reply.remote
                  (min reply.index t.replica.log.lastIndex)) })
            rw [hadvance]
            exact ⟨⟨rfl, rfl, rfl⟩,
              .note hleads hpresent hview rfl rfl rfl rfl (by simp [hsuccess])⟩
          · rename_i hsuccess
            exact ⟨⟨rfl, rfl, rfl⟩,
              .note hleads hpresent hview rfl rfl rfl rfl (by simp [hsuccess])⟩
        · exact .refl _ _
    · exact .refl _ _

end Turn

namespace Replica

/-- **Nothing but what `Change` lists ever comes of an event.** -/
theorem handles_handle (r : Replica) (event : Event) :
    r.Handles event (r.handle event).1.replica := by
  have hstart : (Turn.start r).replica = r := rfl
  unfold handle Turn.handle
  cases event with
  | error message => exact .refl _ _
  | writeAhead write => exact (Turn.start r).onWriteAheads_handles (.writeAhead write)
  | aggregatedWriteAhead batch =>
    exact (Turn.start r).onWriteAheads_handles (.aggregatedWriteAhead batch)
  | heartbeatTimeout =>
    simp only [Turn.onHeartbeatTimeout]
    split <;> exact .refl _ _
  | electionTimeout => exact (Turn.start r).onElectionTimeout_handles
  | voteRequest request ticket => exact (Turn.start r).onVoteRequest_handles request ticket
  | voteReply reply => exact (Turn.start r).onVoteReply_handles reply
  | appendRequest request ticket => exact (Turn.start r).onAppendRequest_handles request ticket
  | appendReply reply => exact (Turn.start r).onAppendReply_handles reply

end Replica

end RaftReplica
