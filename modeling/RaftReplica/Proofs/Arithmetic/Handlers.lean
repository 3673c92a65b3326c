import RaftReplica.Proofs.Arithmetic.Election
import RaftReplica.Proofs.Arithmetic.Progress
import RaftReplica.Proofs.Replica.Reach

/-!
# The handlers in words

What a replica does with an event, once more as computations on words that find a fault where a number
leaves its word, where a place lies outside of its list, and where something is missing that is there in
every replica that serves.

* `checkedApply` puts committed entries on the commit stream one by one, and `checkedReplicate` sends to one
  group of peers after the other.
* `checkedHandle` handles an event.
* `checkedCommitTo_eq`, `checkedReplicate_eq` and their kin say under which conditions a part of it does what
  the running definition does, without a fault.
* `checkedOnElectionTimeout_overflow` is the one fault that a replica that serves can come to.
-/

namespace RaftReplica

open Checked (add sub)

namespace Replica

/-- The broadcast to a group of peers that wait for `next`. -/
def checkedGroupBroadcast (r : Replica) (next : Nat) (names : List String) : Checked Effect := do
  let prevLogIndex ← sub next 1
  match ← r.log.checkedTermAt? prevLogIndex with
  | none => throw .beyondLog
  | some prevLogTerm =>
    let entries ← r.log.checkedEntriesFrom next maxEntriesPerAppend
    let request : AppendRequest :=
      { term := r.term, leader := r.name, prevLogIndex, prevLogTerm
        leaderCommit := r.commitIndex, entries }
    return .broadcast (r.peers.filter fun seat => names.contains seat.peer.name) (.append request)

/-- With books in order the broadcast to a group has no fault. -/
theorem Booked.checkedGroupBroadcast_eq {r : Replica} {progress : Progress} (h : r.Booked progress)
    {group : Nat × List String} (hgroup : group ∈ progress.groups) :
    ∃ broadcast, r.checkedGroupBroadcast group.1 group.2 = .ok broadcast ∧
      r.groupBroadcast? group.1 group.2 = some broadcast := by
  obtain ⟨hpos, request, hrequest⟩ := h.exists_appendRequest? hgroup
  obtain ⟨prevLogTerm, hterm, hships⟩ := Option.map_eq_some_iff.mp hrequest
  refine ⟨_, ?_, by rw [groupBroadcast?, hrequest, Option.map_some]⟩
  rw [checkedGroupBroadcast, Checked.sub_eq hpos]
  simp only [Checked.ok_bind, Log.checkedTermAt?_eq, hterm, Log.checkedEntriesFrom_eq,
    Checked.pure_eq, ← hships]

end Replica

namespace Turn

/-! ## Committing and replicating -/

/-- Puts one entry after the other on the commit stream, as long as any are waiting. -/
def checkedApply (t : Turn) : (waiting : Nat) → Checked Turn
  | 0 => return t
  | waiting + 1 => do
    let index ← add wordMax t.replica.lastApplied 1
    match ← t.replica.log.checkedGet? index with
    | none => throw .noEntry
    | some entry =>
      ((t.emit (.commit entry)).update fun r => { r with lastApplied := index }).checkedApply waiting

def checkedCommitTo (t : Turn) (index : Nat) : Checked Turn :=
  (t.update fun r => { r with commitIndex := index }).checkedApply (index - t.replica.lastApplied)

def checkedCommitBeyond (t : Turn) (index : Nat) : Checked Turn :=
  if t.replica.commitIndex < index then t.checkedCommitTo index else return t

def checkedAdvanceCommitIndex (t : Turn) : Checked Turn := do
  match t.replica.progress with
  | none => throw .noProgress
  | some progress =>
    let index := (clusterCommitIndex progress.matched).getD t.replica.log.lastIndex
    let term? ← t.replica.log.checkedTermAt? index
    if t.replica.commitIndex < index ∧ term? = some t.replica.term then t.checkedCommitTo index
    else return t

def checkedReplicate (t : Turn) : Checked Turn := do
  match t.replica.progress with
  | none => throw .noProgress
  | some progress =>
    let broadcasts ← progress.groups.mapM fun (next, names) =>
      t.replica.checkedGroupBroadcast next names
    return t.emitAll broadcasts

/-- Exchanges the timers and takes a fresh view of the peers. -/
def checkedPrepareLeader (t : Turn) : Checked Turn := do
  let t := (t.leaveOffice.stopTicker .election).startTicker .heartbeat
  let progress ← Progress.checkedStart t.replica.peers.names t.replica.log.lastIndex
  return t.update fun r => { r with progress := some progress, leader := some r.name }

def checkedBecomeLeader (t : Turn) : Checked Turn := do
  let t ← t.checkedPrepareLeader
  let t ← (t.settle .leader).checkedAdvanceCommitIndex
  t.checkedReplicate

/-! ## Events -/

def checkedWriteOne (t : Turn) (write : WriteAhead) : Checked Turn := do
  let (index, log) ← t.replica.log.checkedAppend t.replica.term write.data
  return (t.update fun r => { r with log }).respond write (.receipt t.replica.term index)

def checkedOnWriteAheads (t : Turn) (batch : List WriteAhead) : Checked Turn := do
  if t.replica.role = .leader then
    let t ← batch.foldlM checkedWriteOne t
    let t ← t.checkedAdvanceCommitIndex
    t.checkedReplicate
  else return batch.foldl refuseOne t

def checkedOnHeartbeatTimeout (t : Turn) : Checked Turn :=
  if t.replica.role = .leader then t.checkedReplicate else return t

def checkedCastOwnVote (election : Election) (name : String) : Checked Election := do
  match ← election.checkedVote name with
  | .ok (_, election) => return election
  | .error _ => return election

/-- Calls an election and votes for oneself. -/
def checkedPrepareCandidate (t : Turn) : Checked Outcome := do
  let t := t.leaveOffice
  match t.replica.quorum.election with
  | .error cause => return (t, .error (.election cause))
  | .ok election =>
    let election ← checkedCastOwnVote election t.replica.name
    return (t.update fun r => { r with election := some election }, .ok ())

def checkedOnElectionTimeout (t : Turn) : Checked Outcome := do
  if t.replica.role = .follower ∨ t.replica.role = .candidate then
    let term ← add wordMax t.replica.term 1
    let t := t.update fun r => { r with term, votedFor := some r.name, leader := none }
    match ← t.checkedPrepareCandidate with
    | (t, .error error) => return (t, .error error)
    | (t, .ok ()) =>
      let t := t.settle .candidate
      match t.replica.election with
      | none => throw .noElection
      | some election =>
        if ← election.checkedPassed then
          let t ← t.checkedBecomeLeader
          return (t, .ok ())
        else return (t.emit (.broadcast t.replica.peers (.vote t.replica.voteRequest)), .ok ())
  else return (t, .ok ())

def checkedCountVote (t : Turn) (voter : String) : Checked Turn := do
  match t.replica.election with
  | none => throw .noElection
  | some election =>
    match ← election.checkedVote voter with
    | .error _ => return t
    | .ok (passed, election) =>
      let t := t.update fun r => { r with election := some election }
      if passed then t.checkedBecomeLeader else return t

def checkedOnVoteReply (t : Turn) (reply : VoteReply) : Checked Turn :=
  if t.replica.term < reply.term then return t.stepDown reply.term none
  else if t.replica.role = .candidate ∧ reply.term = t.replica.term ∧ reply.granted then
    t.checkedCountVote reply.remote
  else return t

def checkedAcceptEntries (t : Turn) (request : AppendRequest) : Checked (Turn × AppendReply) := do
  let term? ← t.replica.log.checkedTermAt? request.prevLogIndex
  if term? = some request.prevLogTerm then
    let (lastNew, log) ← t.replica.log.checkedMerge request.prevLogIndex request.entries
    let t := t.update fun r => { r with log }
    let t ← t.checkedCommitBeyond (min request.leaderCommit lastNew)
    return (t, t.replica.appendReply true lastNew)
  else return (t, t.replica.appendReply false t.replica.log.lastIndex)

def checkedOnAppendRequest (t : Turn) (request : AppendRequest) (ticket : Ticket) : Checked Turn := do
  if request.term < t.replica.term then
    let reply := t.replica.appendReply false t.replica.log.lastIndex
    return t.emit (.answer ticket (.append reply))
  else
    let (t, reply) ← (t.follow request).checkedAcceptEntries request
    return t.emit (.answer ticket (.append reply))

def checkedOnAppendReply (t : Turn) (reply : AppendReply) : Checked Turn := do
  if t.replica.term < reply.term then return t.stepDown reply.term none
  else if t.replica.role = .leader ∧ reply.term = t.replica.term then
    match t.replica.progress with
    | none => throw .noProgress
    | some progress =>
      let index := min reply.index t.replica.log.lastIndex
      let note := fun p : PeerProgress => if reply.success then p.checkedSucceed index else p.checkedFail index
      match ← progress.checkedNote reply.remote note with
      | none => return t
      | some progress =>
        let t := t.update fun r => { r with progress := some progress }
        if reply.success then t.checkedAdvanceCommitIndex else return t
  else return t

/-- Handles an event.  Voting for others compares and copies only, and cannot go wrong. -/
def checkedHandle (t : Turn) : Event → Checked Outcome
  | .error message => return (t, .error (.aborted message))
  | .writeAhead write => do return (← t.checkedOnWriteAheads [write], .ok ())
  | .aggregatedWriteAhead batch => do return (← t.checkedOnWriteAheads batch, .ok ())
  | .heartbeatTimeout => do return (← t.checkedOnHeartbeatTimeout, .ok ())
  | .electionTimeout => t.checkedOnElectionTimeout
  | .voteRequest request ticket => return (t.onVoteRequest request ticket, .ok ())
  | .voteReply reply => do return (← t.checkedOnVoteReply reply, .ok ())
  | .appendRequest request ticket => do return (← t.checkedOnAppendRequest request ticket, .ok ())
  | .appendReply reply => do return (← t.checkedOnAppendReply reply, .ok ())

/-! ## No fault in committing -/

section Faultless

variable {t : Turn} {progress : Progress}

/-- What waits is put on the commit stream if the log reaches so far and a word counts it. -/
theorem checkedApply_eq (waiting : Nat)
    (hreaches : t.replica.lastApplied + waiting ≤ t.replica.log.lastIndex)
    (hword : t.replica.log.lastIndex ≤ wordMax) :
    t.checkedApply waiting = .ok
      ((t.emitAll (((t.replica.log.entries.drop t.replica.lastApplied).take waiting).map .commit)).update
        fun r => { r with lastApplied := t.replica.lastApplied + waiting }) := by
  induction waiting generalizing t with
  | zero => simp [checkedApply, emitAll, update]
  | succ waiting ih =>
    have hlast : t.replica.lastApplied < t.replica.log.entries.length := by
      unfold Log.lastIndex at hreaches
      omega
    -- the first entry goes on the stream, and the rest waits behind it
    let entry := t.replica.log.entries[t.replica.lastApplied]
    have hentry : t.replica.log.get? (t.replica.lastApplied + 1) = some entry := by
      rw [Log.get?_succ, List.getElem?_eq_getElem hlast]
    let next := (t.emit (.commit entry)).update fun r =>
      { r with lastApplied := t.replica.lastApplied + 1 }
    have hnext : next.replica.lastApplied + waiting ≤ next.replica.log.lastIndex := by
      show t.replica.lastApplied + 1 + waiting ≤ t.replica.log.lastIndex
      omega
    have happly : t.checkedApply (waiting + 1) = next.checkedApply waiting := by
      rw [checkedApply, Checked.add_eq (by omega)]
      simp only [Checked.ok_bind, Log.checkedGet?_eq, hentry]
      rfl
    rw [happly, ih hnext hword, List.drop_eq_getElem_cons hlast, List.take_succ_cons, List.map_cons]
    simp only [next, entry, emit, emitAll, update, List.append_assoc, List.singleton_append,
      Nat.add_assoc, Nat.add_comm 1]

theorem checkedCommitTo_eq {index : Nat} (hindex : t.replica.lastApplied ≤ index)
    (hreaches : index ≤ t.replica.log.lastIndex) (hword : t.replica.log.lastIndex ≤ wordMax) :
    t.checkedCommitTo index = .ok (t.commitTo index) := by
  let u := t.update fun r => { r with commitIndex := index }
  have hwaiting : u.replica.lastApplied + (index - t.replica.lastApplied) ≤ u.replica.log.lastIndex := by
    show t.replica.lastApplied + (index - t.replica.lastApplied) ≤ t.replica.log.lastIndex
    omega
  rw [checkedCommitTo, checkedApply_eq _ hwaiting hword, commitTo, applyCommitted,
    Replica.unapplied_eq, List.drop_take]
  simp only [u, update, emitAll, Nat.add_sub_cancel' hindex, Nat.max_eq_right hindex]

theorem checkedAdvanceCommitIndex_eq (hprogress : t.replica.progress = some progress)
    (happlied : t.replica.lastApplied = t.replica.commitIndex)
    (hword : t.replica.log.lastIndex ≤ wordMax) :
    t.checkedAdvanceCommitIndex = .ok t.advanceCommitIndex := by
  unfold checkedAdvanceCommitIndex advanceCommitIndex Replica.majorityIndex?
  simp only [hprogress, Option.map_some, Log.checkedTermAt?_eq, Checked.ok_bind, Checked.pure_eq]
  split
  · rename_i hcommits
    obtain ⟨hrises, hpresent⟩ := hcommits
    exact checkedCommitTo_eq (by omega) (Log.le_length_of_termAt? hpresent) hword
  · rfl

/-! ## No fault in replicating -/

theorem checkedReplicate_eq (hprogress : t.replica.progress = some progress)
    (hbooked : t.replica.Booked progress) : t.checkedReplicate = .ok t.replicate := by
  have hgroups : ∀ groups : List (Nat × List String), (∀ group ∈ groups, group ∈ progress.groups) →
      (groups.mapM fun (next, names) => t.replica.checkedGroupBroadcast next names) =
        .ok (t.replica.groupBroadcasts groups) := by
    intro groups hsub
    induction groups with
    | nil => rfl
    | cons group rest ih =>
      obtain ⟨broadcast, hchecked, hplain⟩ :=
        hbooked.checkedGroupBroadcast_eq (hsub group List.mem_cons_self)
      have hrest := ih fun group hgroup => hsub group (List.mem_cons_of_mem _ hgroup)
      simp only [List.mapM_cons, hchecked, hrest, Checked.ok_bind, Checked.pure_eq,
        Replica.groupBroadcasts]
      rw [List.filterMap_cons, hplain]
  unfold checkedReplicate replicate Replica.replicationBroadcasts
  simp only [hprogress, hgroups progress.groups fun _ h => h, Checked.ok_bind, Checked.pure_eq]

/-- A leader with its books in order commits what it may and replicates. -/
theorem checkedAdvance_checkedReplicate_eq (hprogress : t.replica.progress = some progress)
    (hbooked : t.replica.Booked progress) (happlied : t.replica.lastApplied = t.replica.commitIndex)
    (hword : t.replica.log.lastIndex ≤ wordMax) :
    (t.checkedAdvanceCommitIndex >>= checkedReplicate) = .ok t.advanceCommitIndex.replicate := by
  have hadvanced := replica_advanceCommitIndex happlied
  have hprogress' : t.advanceCommitIndex.replica.progress = some progress := by
    rw [hadvanced]
    exact hprogress
  have hbooked' : t.advanceCommitIndex.replica.Booked progress := by
    rw [hadvanced]
    exact hbooked.mono rfl (Nat.le_refl _)
  rw [checkedAdvanceCommitIndex_eq hprogress happlied hword, Checked.ok_bind,
    checkedReplicate_eq hprogress' hbooked']

theorem checkedPrepareLeader_eq (hword : t.replica.log.lastIndex < wordMax) :
    t.checkedPrepareLeader = .ok t.prepareLeader := by
  let u := (t.leaveOffice.stopTicker .election).startTicker .heartbeat
  have hu : u.replica.log.lastIndex < wordMax := by
    rw [show u.replica = _ from replica_startTicker .., replica_stopTicker]
    exact hword
  show (Progress.checkedStart u.replica.peers.names u.replica.log.lastIndex >>= _) = _
  rw [Progress.checkedStart_eq hu]
  rfl

theorem checkedBecomeLeader_eq (happlied : t.replica.lastApplied = t.replica.commitIndex)
    (hword : t.replica.log.lastIndex < wordMax) :
    t.checkedBecomeLeader = .ok t.becomeLeader := by
  let u := t.prepareLeader.settle .leader
  have hprogress : u.replica.progress =
      some (Progress.start t.replica.peers.names t.replica.log.lastIndex) := by simp [u]
  have hbooked : u.replica.Booked (Progress.start t.replica.peers.names t.replica.log.lastIndex) :=
    (Replica.Booked.start t.replica).mono (by simp [u]) (by simp [u])
  have happlied' : u.replica.lastApplied = u.replica.commitIndex := by simpa [u] using happlied
  have hword' : u.replica.log.lastIndex ≤ wordMax := by simpa [u] using Nat.le_of_lt hword
  rw [checkedBecomeLeader, checkedPrepareLeader_eq hword, Checked.ok_bind]
  exact checkedAdvance_checkedReplicate_eq hprogress hbooked happlied' hword'

/-! ## No fault in events -/

theorem checkedWriteOne_eq (write : WriteAhead) (hword : t.replica.log.lastIndex < wordMax) :
    t.checkedWriteOne write = .ok (t.writeOne write) := by
  rw [checkedWriteOne, Log.checkedAppend_eq _ _ _ hword]
  rfl

theorem checkedWrites_eq {batch : List WriteAhead}
    (hword : t.replica.log.lastIndex + batch.length ≤ wordMax) :
    batch.foldlM checkedWriteOne t = .ok (batch.foldl writeOne t) := by
  induction batch generalizing t with
  | nil => rfl
  | cons write rest ih =>
    rw [List.length_cons] at hword
    have hlast : (t.writeOne write).replica.log.lastIndex = t.replica.log.lastIndex + 1 := by
      simp [writeOne]
    rw [List.foldlM_cons, checkedWriteOne_eq write (by omega), Checked.ok_bind, List.foldl_cons]
    exact ih (by omega)

theorem checkedOnWriteAheads_eq {batch : List WriteAhead} (hsteady : t.replica.Steady)
    (hword : t.replica.role = .leader → t.replica.log.lastIndex + batch.length ≤ wordMax) :
    t.checkedOnWriteAheads batch = .ok (t.onWriteAheads batch) := by
  unfold checkedOnWriteAheads onWriteAheads
  by_cases hrole : t.replica.role = .leader
  · let u := batch.foldl writeOne t
    have hu : u.replica = _ := t.replica_foldl_writeOne batch
    have hsteady' : u.replica.Steady := steady_foldl_writeOne hsteady batch
    obtain ⟨progress, hprogress, hbooked⟩ := hsteady'.booked (by rw [hu]; exact hrole)
    have hword' : u.replica.log.lastIndex ≤ wordMax := by
      rw [hu]
      simpa [Log.lastIndex_appendAll] using hword hrole
    rw [if_pos hrole, if_pos hrole, checkedWrites_eq (hword hrole), Checked.ok_bind]
    exact checkedAdvance_checkedReplicate_eq hprogress hbooked hsteady'.applied hword'
  · rw [if_neg hrole, if_neg hrole]
    rfl

theorem checkedOnHeartbeatTimeout_eq (hsteady : t.replica.Steady) :
    t.checkedOnHeartbeatTimeout = .ok t.onHeartbeatTimeout := by
  unfold checkedOnHeartbeatTimeout onHeartbeatTimeout
  by_cases hrole : t.replica.role = .leader
  · obtain ⟨progress, hprogress, hbooked⟩ := hsteady.booked hrole
    rw [if_pos hrole, if_pos hrole, checkedReplicate_eq hprogress hbooked]
  · rw [if_neg hrole, if_neg hrole]
    rfl

theorem checkedCastOwnVote_eq {election : Election} (h : election.Countable) (name : String) :
    checkedCastOwnVote election name = .ok (castOwnVote election name) := by
  unfold checkedCastOwnVote castOwnVote
  rw [h.checkedVote_eq]
  cases election.vote name <;> rfl

theorem checkedPrepareCandidate_eq (t : Turn) : t.checkedPrepareCandidate = .ok t.prepareCandidate := by
  unfold checkedPrepareCandidate prepareCandidate
  dsimp only
  cases hcalled : t.leaveOffice.replica.quorum.election with
  | error cause => rfl
  | ok election =>
    simp only [checkedCastOwnVote_eq (Election.countable_called hcalled), Checked.ok_bind,
      Checked.pure_eq]
    rfl

/-- Who becomes a candidate has called an election that can be counted. -/
theorem prepareCandidate_ok {u : Turn} (h : t.prepareCandidate = (u, .ok ())) :
    ∃ votes : Election, votes.Countable ∧
      u = t.leaveOffice.update fun r => { r with election := some votes } := by
  unfold prepareCandidate at h
  dsimp only at h
  cases hcalled : t.leaveOffice.replica.quorum.election with
  | error cause =>
    rw [hcalled] at h
    cases h
  | ok election =>
    rw [hcalled] at h
    exact ⟨_, (Election.countable_called hcalled).castOwnVote _, (Prod.mk.inj h).1.symm⟩

theorem checkedOnElectionTimeout_eq (hterm : t.replica.term < wordMax)
    (happlied : t.replica.lastApplied = t.replica.commitIndex)
    (hword : t.replica.log.lastIndex < wordMax) :
    t.checkedOnElectionTimeout = .ok t.onElectionTimeout := by
  unfold checkedOnElectionTimeout onElectionTimeout
  by_cases hrole : t.replica.role = .follower ∨ t.replica.role = .candidate
  · have hsucc : succ? t.replica.term = some (t.replica.term + 1) := if_pos hterm
    rw [if_pos hrole, if_pos hrole, hsucc, Checked.add_eq hterm, Checked.ok_bind]
    let next := t.update fun r =>
      { r with term := t.replica.term + 1, votedFor := some r.name, leader := none }
    show (next.checkedPrepareCandidate >>= _) = _
    rw [checkedPrepareCandidate_eq, Checked.ok_bind]
    simp only [enter]
    rcases hprepared : next.prepareCandidate with ⟨prepared, error | ⟨⟩⟩
    · rfl
    · obtain ⟨votes, hvotes, rfl⟩ := prepareCandidate_ok hprepared
      let stands := (next.leaveOffice.update fun r => { r with election := some votes }).settle .candidate
      have hstands : stands.replica.election = some votes := by simp [stands]
      have happlied' : stands.replica.lastApplied = stands.replica.commitIndex := by
        simpa [stands, next] using happlied
      have hword' : stands.replica.log.lastIndex < wordMax := by simpa [stands, next] using hword
      have hlead := checkedBecomeLeader_eq happlied' hword'
      dsimp only
      rw [hstands, Option.any_some]
      cases hpassed : votes.passed with
      | true => simp [hvotes.checkedPassed_eq, hpassed, hlead, stands]
      | false => simp [hvotes.checkedPassed_eq, hpassed]
  · rw [if_neg hrole, if_neg hrole]
    rfl

theorem checkedOnElectionTimeout_overflow (hterm : t.replica.term = wordMax)
    (hrole : t.replica.role = .follower ∨ t.replica.role = .candidate) :
    t.checkedOnElectionTimeout = .error .overflow := by
  rw [checkedOnElectionTimeout, if_pos hrole, hterm, Checked.add_overflow (Nat.lt_succ_self _)]
  rfl

theorem checkedOnElectionTimeout_of_leader
    (hrole : ¬(t.replica.role = .follower ∨ t.replica.role = .candidate)) :
    t.checkedOnElectionTimeout = .ok t.onElectionTimeout := by
  rw [checkedOnElectionTimeout, onElectionTimeout, if_neg hrole, if_neg hrole]
  rfl

theorem checkedCountVote_eq {votes : Election} (hvotes : t.replica.election = some votes)
    (hcountable : votes.Countable) (voter : String)
    (happlied : t.replica.lastApplied = t.replica.commitIndex)
    (hword : t.replica.log.lastIndex < wordMax) :
    t.checkedCountVote voter = .ok (t.countVote voter) := by
  unfold checkedCountVote countVote
  simp only [hvotes, hcountable.checkedVote_eq, Checked.ok_bind]
  cases votes.vote voter with
  | error cause => rfl
  | ok result =>
    obtain ⟨passed, after⟩ := result
    cases passed with
    | false => rfl
    | true => exact checkedBecomeLeader_eq happlied hword

theorem checkedOnVoteReply_eq (reply : VoteReply)
    (hstands : t.replica.role = .candidate →
      ∃ votes, t.replica.election = some votes ∧ votes.Countable)
    (happlied : t.replica.lastApplied = t.replica.commitIndex)
    (hword : t.replica.log.lastIndex < wordMax) :
    t.checkedOnVoteReply reply = .ok (t.onVoteReply reply) := by
  unfold checkedOnVoteReply onVoteReply
  split
  · rfl
  · split
    · rename_i hcounts
      obtain ⟨votes, hvotes, hcountable⟩ := hstands hcounts.1
      exact checkedCountVote_eq hvotes hcountable reply.remote happlied hword
    · rfl

theorem checkedCommitBeyond_eq {index : Nat} (happlied : t.replica.lastApplied = t.replica.commitIndex)
    (hreaches : index ≤ t.replica.log.lastIndex) (hword : t.replica.log.lastIndex ≤ wordMax) :
    t.checkedCommitBeyond index = .ok (t.commitBeyond index) := by
  unfold checkedCommitBeyond commitBeyond
  split
  · exact checkedCommitTo_eq (by omega) hreaches hword
  · rfl

theorem checkedAcceptEntries_eq (request : AppendRequest)
    (happlied : t.replica.lastApplied = t.replica.commitIndex)
    (hword : (t.acceptEntries request).1.replica.log.lastIndex ≤ wordMax) :
    t.checkedAcceptEntries request = .ok (t.acceptEntries request) := by
  unfold checkedAcceptEntries
  rw [Log.checkedTermAt?_eq, Checked.ok_bind]
  rcases t.acceptEntries_cases request with ⟨hagrees, haccepts⟩ | ⟨hdiffers, hrefuses⟩
  · obtain ⟨commitIndex, lastApplied, haccepted⟩ := t.exists_replica_accept request
    let u := t.update fun r =>
      { r with log := (r.log.merge request.prevLogIndex request.entries).2 }
    have hlast : u.replica.log.lastIndex ≤ wordMax := by
      rw [haccepts] at hword
      simp only [haccepted] at hword
      exact hword
    -- an index that is counted while merging is one that the merged log reaches
    have hreaches : request.prevLogIndex + request.entries.length ≤ u.replica.log.lastIndex :=
      Log.le_length_merge (Log.le_length_of_termAt? hagrees) request.entries
    have hcommit : u.checkedCommitBeyond
        (min request.leaderCommit (request.prevLogIndex + request.entries.length)) =
          .ok (t.accept request) :=
      checkedCommitBeyond_eq happlied (by omega) hlast
    rw [if_pos hagrees, Log.checkedMerge_eq _ _ _ (Nat.le_trans hreaches hlast), Checked.ok_bind,
      haccepts]
    simp only [Log.merge_fst]
    show (u.checkedCommitBeyond _ >>= _) = _
    rw [hcommit]
    rfl
  · rw [if_neg hdiffers, hrefuses]
    rfl

theorem checkedOnAppendRequest_eq (request : AppendRequest) (ticket : Ticket)
    (happlied : t.replica.lastApplied = t.replica.commitIndex)
    (hword : (t.onAppendRequest request ticket).replica.log.lastIndex ≤ wordMax) :
    t.checkedOnAppendRequest request ticket = .ok (t.onAppendRequest request ticket) := by
  unfold checkedOnAppendRequest
  rcases Nat.lt_or_ge request.term t.replica.term with hstale | hle
  · rw [if_pos hstale, t.onAppendRequest_of_lt ticket hstale]
    rfl
  · obtain ⟨-, -, -, -, -, -, hlog, hindex, hfollows⟩ := t.replica_follow hle
    rw [t.onAppendRequest_of_le ticket hle] at hword ⊢
    rw [if_neg (Nat.not_lt.mpr hle), checkedAcceptEntries_eq request (by rw [hfollows, hindex, happlied]) hword]
    rfl

theorem checkedOnAppendReply_eq (reply : AppendReply) (hsteady : t.replica.Steady)
    (hword : t.replica.log.lastIndex < wordMax) :
    t.checkedOnAppendReply reply = .ok (t.onAppendReply reply) := by
  unfold checkedOnAppendReply onAppendReply
  split
  · rfl
  · split
    · rename_i hpresent
      obtain ⟨progress, hprogress, hbooked⟩ := hsteady.booked hpresent.1
      have hindex : min reply.index t.replica.log.lastIndex ≤ t.replica.log.lastIndex :=
        Nat.min_le_right _ _
      simp only [hprogress, noteReply]
      cases hsuccess : reply.success with
      | true =>
        have hnote := Progress.checkedNote_eq fun p hp =>
          (hbooked.fits reply.remote p hp).checkedSucceed_eq hindex hword
        simp only [if_true, hnote, Checked.ok_bind]
        cases progress.contains reply.remote with
        | true => exact checkedAdvanceCommitIndex_eq rfl hsteady.applied (Nat.le_of_lt hword)
        | false => rfl
      | false =>
        have hnote := Progress.checkedNote_eq fun p hp =>
          (hbooked.fits reply.remote p hp).checkedFail_eq hindex hword
        simp only [Bool.false_eq_true, if_false, hnote, Checked.ok_bind]
        cases progress.contains reply.remote <;> rfl
    · rfl

end Faultless

end Turn

end RaftReplica
