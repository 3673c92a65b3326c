import RaftReplica.Replica.Effects

/-!
# The parts of a turn

A turn is put together from a few parts: publishing, timers, taking a role, stepping down, committing
and replicating.  For each part this file says what it leaves of the replica and what it adds to the
three things that the outside hears of a turn, which are the calls to peers, the answers and the
committed entries.  Later proofs use these equations and open none of the parts again.  What a turn
publishes is left to `RaftReplica.Proofs.Replica.News`.

* Publishing and timers change neither role, term, vote nor log, and are heard by nobody here.
* `stepDown` ends as a follower, in the later of the two terms.
* `advanceCommitIndex` moves the commit index only.
* `replicate` changes nothing and calls peers only.
-/

namespace RaftReplica

namespace Replica

theorem setTicker_eq (r : Replica) (tick : Tick) (present : Bool) :
    r.setTicker tick present =
      { r with
        heartbeatTicker := if tick = .heartbeat then present else r.heartbeatTicker
        electionTicker := if tick = .election then present else r.electionTicker } := by
  cases tick <;> rfl

end Replica

namespace Turn

/-- The calls that a turn asks for, to connected peers and to others. -/
def calls (t : Turn) : List (Seat × Request) := t.effects.flatMap Effect.calls

/-- What goes out is asked for. -/
theorem mem_calls_of_mem_sent {t : Turn} {call : Seat × Request} (h : call ∈ t.sent) :
    call ∈ t.calls := by
  unfold sent at h
  split at h
  · cases h
  · exact (List.mem_filter.mp h).1

/-! ## Elementary updates -/

section Elementary

variable (r : Replica) (t : Turn) (effect : Effect) (effects : List Effect)
  (change : Replica → Replica)

@[simp] theorem replica_start : (start r).replica = r := rfl

@[simp] theorem calls_start : (start r).calls = [] := rfl

@[simp] theorem answers_start : (start r).answers = [] := rfl

@[simp] theorem committed_start : (start r).committed = [] := rfl

@[simp] theorem calls_update : (t.update change).calls = t.calls := rfl

@[simp] theorem answers_update : (t.update change).answers = t.answers := rfl

@[simp] theorem committed_update : (t.update change).committed = t.committed := rfl

@[simp] theorem calls_emit : (t.emit effect).calls = t.calls ++ effect.calls := by
  simp [calls]

@[simp] theorem answers_emit :
    (t.emit effect).answers = t.answers ++ effect.answer?.toList := by
  simp only [answers, effects_emit, List.filterMap_append]
  cases h : effect.answer? <;> simp [h]

@[simp] theorem committed_emit :
    (t.emit effect).committed = t.committed ++ effect.commit?.toList := by
  simp only [committed, effects_emit, List.filterMap_append]
  cases h : effect.commit? <;> simp [h]

@[simp] theorem calls_emitAll :
    (t.emitAll effects).calls = t.calls ++ effects.flatMap Effect.calls := by
  simp [calls]

@[simp] theorem answers_emitAll :
    (t.emitAll effects).answers = t.answers ++ effects.filterMap Effect.answer? := by
  simp [answers]

@[simp] theorem committed_emitAll :
    (t.emitAll effects).committed = t.committed ++ effects.filterMap Effect.commit? := by
  simp [committed]

end Elementary

/-! ## Publishing and timers -/

section Timers

variable (t : Turn) (tick : Tick)

@[simp] theorem replica_publish :
    t.publish.replica = { t.replica with published := t.replica.snapshot } := by
  unfold publish
  split
  · rename_i h
    rw [← h]
  · rfl

@[simp] theorem calls_publish : t.publish.calls = t.calls := by
  unfold publish
  split <;> simp [Effect.calls]

@[simp] theorem answers_publish : t.publish.answers = t.answers := by
  unfold publish
  split <;> simp [Effect.answer?]

@[simp] theorem committed_publish : t.publish.committed = t.committed := by
  unfold publish
  split <;> simp [Effect.commit?]

@[simp] theorem replica_startTicker :
    (t.startTicker tick).replica = t.replica.setTicker tick true := rfl

@[simp] theorem calls_startTicker : (t.startTicker tick).calls = t.calls := by
  simp [startTicker, Effect.calls]

@[simp] theorem answers_startTicker : (t.startTicker tick).answers = t.answers := by
  simp [startTicker, Effect.answer?]

@[simp] theorem committed_startTicker : (t.startTicker tick).committed = t.committed := by
  simp [startTicker, Effect.commit?]

/-- A timer that is not there need not be stopped. -/
@[simp] theorem replica_stopTicker :
    (t.stopTicker tick).replica = t.replica.setTicker tick false := by
  unfold stopTicker
  split
  · rfl
  · rename_i h
    cases tick <;> simp_all [Replica.hasTicker, Replica.setTicker] <;> rw [← h]

@[simp] theorem calls_stopTicker : (t.stopTicker tick).calls = t.calls := by
  unfold stopTicker
  split <;> simp [Effect.calls]

@[simp] theorem answers_stopTicker : (t.stopTicker tick).answers = t.answers := by
  unfold stopTicker
  split <;> simp [Effect.answer?]

@[simp] theorem committed_stopTicker : (t.stopTicker tick).committed = t.committed := by
  unfold stopTicker
  split <;> simp [Effect.commit?]

@[simp] theorem replica_interruptTicker : (t.interruptTicker tick).replica = t.replica := by
  unfold interruptTicker
  split <;> rfl

@[simp] theorem calls_interruptTicker : (t.interruptTicker tick).calls = t.calls := by
  unfold interruptTicker
  split <;> simp [Effect.calls]

@[simp] theorem answers_interruptTicker : (t.interruptTicker tick).answers = t.answers := by
  unfold interruptTicker
  split <;> simp [Effect.answer?]

@[simp] theorem committed_interruptTicker : (t.interruptTicker tick).committed = t.committed := by
  unfold interruptTicker
  split <;> simp [Effect.commit?]

end Timers

/-! ## Roles -/

section Roles

variable (t : Turn) (role : Role)

@[simp] theorem replica_settle :
    (t.settle role).replica =
      { t.replica with role, published := ⟨role, t.replica.term, t.replica.leader⟩ } := by
  simp [settle, Replica.snapshot]

@[simp] theorem calls_settle : (t.settle role).calls = t.calls := by simp [settle]

@[simp] theorem answers_settle : (t.settle role).answers = t.answers := by simp [settle]

@[simp] theorem committed_settle : (t.settle role).committed = t.committed := by simp [settle]

@[simp] theorem replica_leaveOffice :
    t.leaveOffice.replica = { t.replica with election := none, progress := none } := rfl

@[simp] theorem calls_leaveOffice : t.leaveOffice.calls = t.calls := rfl

@[simp] theorem answers_leaveOffice : t.leaveOffice.answers = t.answers := rfl

@[simp] theorem committed_leaveOffice : t.leaveOffice.committed = t.committed := rfl

/-- Whoever turns follower ends up with the election timer alone. -/
@[simp] theorem replica_prepareFollower :
    t.prepareFollower.replica =
      { t.replica with
        election := none
        progress := none
        heartbeatTicker := false
        electionTicker := true
        health := { t.replica.health with ready := true } } := by
  unfold prepareFollower
  by_cases h : t.replica.electionTicker <;> simp [h, Replica.setTicker_eq]

@[simp] theorem calls_prepareFollower : t.prepareFollower.calls = t.calls := by
  unfold prepareFollower
  by_cases h : t.replica.electionTicker <;> simp [h, Replica.setTicker_eq]

@[simp] theorem answers_prepareFollower : t.prepareFollower.answers = t.answers := by
  unfold prepareFollower
  by_cases h : t.replica.electionTicker <;> simp [h, Replica.setTicker_eq]

@[simp] theorem committed_prepareFollower : t.prepareFollower.committed = t.committed := by
  unfold prepareFollower
  by_cases h : t.replica.electionTicker <;> simp [h, Replica.setTicker_eq]

@[simp] theorem replica_prepareLeader :
    t.prepareLeader.replica =
      { t.replica with
        election := none
        progress := some (Progress.start t.replica.peers.names t.replica.log.lastIndex)
        leader := some t.replica.name
        heartbeatTicker := true
        electionTicker := false } := by
  simp [prepareLeader, Replica.setTicker_eq]

@[simp] theorem calls_prepareLeader : t.prepareLeader.calls = t.calls := by simp [prepareLeader]

@[simp] theorem answers_prepareLeader : t.prepareLeader.answers = t.answers := by
  simp [prepareLeader]

@[simp] theorem committed_prepareLeader : t.prepareLeader.committed = t.committed := by
  simp [prepareLeader]

end Roles

/-! ## Stepping down -/

section SteppingDown

variable (t : Turn) (term : Nat) (leader : Option String)

@[simp] theorem role_stepDown : (t.stepDown term leader).replica.role = .follower := by
  unfold stepDown
  by_cases hrole : t.replica.role = .follower <;>
    by_cases hterm : t.replica.term < term <;> simp [hrole, hterm]

@[simp] theorem term_stepDown :
    (t.stepDown term leader).replica.term = max t.replica.term term := by
  unfold stepDown
  by_cases hrole : t.replica.role = .follower <;>
    by_cases hterm : t.replica.term < term <;> simp [hrole, hterm] <;> omega

/-- A later term clears the vote. -/
@[simp] theorem votedFor_stepDown :
    (t.stepDown term leader).replica.votedFor =
      if t.replica.term < term then none else t.replica.votedFor := by
  unfold stepDown
  by_cases hrole : t.replica.role = .follower <;>
    by_cases hterm : t.replica.term < term <;> simp [hrole, hterm]

/-- Stepping down leaves alone who the replica is, its log and what it has committed. -/
theorem kept_stepDown :
    let r := (t.stepDown term leader).replica
    r.name = t.replica.name ∧ r.quorum = t.replica.quorum ∧ r.peers = t.replica.peers ∧
      r.log = t.replica.log ∧ r.commitIndex = t.replica.commitIndex ∧
      r.lastApplied = t.replica.lastApplied := by
  unfold stepDown
  by_cases hrole : t.replica.role = .follower <;>
    by_cases hterm : t.replica.term < term <;> simp [hrole, hterm]

@[simp] theorem name_stepDown : (t.stepDown term leader).replica.name = t.replica.name :=
  (kept_stepDown t term leader).1

@[simp] theorem quorum_stepDown : (t.stepDown term leader).replica.quorum = t.replica.quorum :=
  (kept_stepDown t term leader).2.1

@[simp] theorem peers_stepDown : (t.stepDown term leader).replica.peers = t.replica.peers :=
  (kept_stepDown t term leader).2.2.1

@[simp] theorem log_stepDown : (t.stepDown term leader).replica.log = t.replica.log :=
  (kept_stepDown t term leader).2.2.2.1

@[simp] theorem commitIndex_stepDown :
    (t.stepDown term leader).replica.commitIndex = t.replica.commitIndex :=
  (kept_stepDown t term leader).2.2.2.2.1

@[simp] theorem lastApplied_stepDown :
    (t.stepDown term leader).replica.lastApplied = t.replica.lastApplied :=
  (kept_stepDown t term leader).2.2.2.2.2

@[simp] theorem calls_stepDown : (t.stepDown term leader).calls = t.calls := by
  unfold stepDown
  by_cases hrole : t.replica.role = .follower <;>
    by_cases hterm : t.replica.term < term <;> simp [hrole, hterm]

@[simp] theorem answers_stepDown : (t.stepDown term leader).answers = t.answers := by
  unfold stepDown
  by_cases hrole : t.replica.role = .follower <;>
    by_cases hterm : t.replica.term < term <;> simp [hrole, hterm]

@[simp] theorem committed_stepDown : (t.stepDown term leader).committed = t.committed := by
  unfold stepDown
  by_cases hrole : t.replica.role = .follower <;>
    by_cases hterm : t.replica.term < term <;> simp [hrole, hterm]

end SteppingDown

end Turn

/-! ## Committing -/

/-- Reading the indexes below `n` one by one gives the first `n` elements. -/
theorem filterMap_range_getElem? {α : Type} (l : List α) (n : Nat) :
    ((List.range n).filterMap fun k => l[k]?) = l.take n := by
  induction n with
  | zero => simp
  | succ n ih =>
    rw [List.range_succ, List.filterMap_append, ih, List.take_add_one]
    cases h : l[n]? <;> simp [h]

/-- The entries that wait for the commit stream are those between the two indexes. -/
theorem Replica.unapplied_eq (r : Replica) :
    r.unapplied = (r.log.entries.take r.commitIndex).drop r.lastApplied := by
  have hget : ∀ k, r.log.get? (r.lastApplied + 1 + k) = (r.log.entries.drop r.lastApplied)[k]? := by
    intro k
    rw [Nat.add_right_comm, Log.get?_succ, List.getElem?_drop]
  simp only [unapplied, hget]
  rw [filterMap_range_getElem?, List.drop_take]

namespace Turn

section Committing

variable (t : Turn) (index : Nat)

@[simp] theorem replica_commitTo :
    (t.commitTo index).replica =
      { t.replica with
        commitIndex := index
        lastApplied := max t.replica.lastApplied index } := rfl

@[simp] theorem calls_commitTo : (t.commitTo index).calls = t.calls := by
  simp [commitTo, applyCommitted, List.flatMap_map, Effect.calls]

@[simp] theorem answers_commitTo : (t.commitTo index).answers = t.answers := by
  simp [commitTo, applyCommitted, List.filterMap_map, Function.comp_def, Effect.answer?]

@[simp] theorem committed_commitTo :
    (t.commitTo index).committed =
      t.committed ++ (t.replica.log.entries.take index).drop t.replica.lastApplied := by
  have hcommit : ∀ entries : List LogEntry,
      (entries.map Effect.commit).filterMap Effect.commit? = entries := by
    intro entries
    simp [List.filterMap_map, Function.comp_def, Effect.commit?]
  rw [commitTo, applyCommitted, committed_update, committed_emitAll, hcommit,
    Replica.unapplied_eq]
  rfl

/-- Either nothing is committed, or all up to an index that a majority holds, which lies beyond what
is committed and ends in an entry of the present term. -/
theorem advanceCommitIndex_cases :
    t.advanceCommitIndex = t ∨
      ∃ index, t.replica.majorityIndex? = some index ∧ t.replica.commitIndex < index ∧
        t.replica.log.termAt? index = some t.replica.term ∧
        t.advanceCommitIndex = t.commitTo index := by
  unfold advanceCommitIndex
  split
  · exact Or.inl rfl
  · rename_i index hindex
    split
    · rename_i h
      exact Or.inr ⟨index, hindex, h.1, h.2, rfl⟩
    · exact Or.inl rfl

/-- What is committed already is not committed again. -/
theorem advanceCommitIndex_of_le (hmajority : t.replica.majorityIndex? = some index)
    (hle : index ≤ t.replica.commitIndex) : t.advanceCommitIndex = t := by
  simp only [advanceCommitIndex, hmajority]
  rw [if_neg fun h => Nat.not_lt.mpr hle h.1]

theorem advanceCommitIndex_of_lt (hmajority : t.replica.majorityIndex? = some index)
    (hlt : t.replica.commitIndex < index)
    (hpresent : t.replica.log.termAt? index = some t.replica.term) :
    t.advanceCommitIndex = t.commitTo index := by
  simp only [advanceCommitIndex, hmajority]
  rw [if_pos ⟨hlt, hpresent⟩]

/-- Advancing moves the commit index and what is applied, and nothing else. -/
theorem exists_replica_advanceCommitIndex :
    ∃ commitIndex lastApplied,
      t.advanceCommitIndex.replica = { t.replica with commitIndex, lastApplied } := by
  rcases t.advanceCommitIndex_cases with h | ⟨index, -, -, -, h⟩
  · exact ⟨t.replica.commitIndex, t.replica.lastApplied, by rw [h]⟩
  · exact ⟨index, max t.replica.lastApplied index, by rw [h]; rfl⟩

@[simp] theorem calls_advanceCommitIndex : t.advanceCommitIndex.calls = t.calls := by
  rcases t.advanceCommitIndex_cases with h | ⟨index, -, -, -, h⟩ <;> simp [h]

@[simp] theorem answers_advanceCommitIndex : t.advanceCommitIndex.answers = t.answers := by
  rcases t.advanceCommitIndex_cases with h | ⟨index, -, -, -, h⟩ <;> simp [h]

end Committing

/-! ## Replicating -/

section Replicating

variable (t : Turn)

@[simp] theorem replica_replicate : t.replicate.replica = t.replica := rfl

@[simp] theorem calls_replicate :
    t.replicate.calls = t.calls ++ t.replica.replicationBroadcasts.flatMap Effect.calls := by
  simp [replicate]

/-- A broadcast of replication is one append request to some peers. -/
theorem eq_broadcast_of_mem_replicationBroadcasts {r : Replica} {effect : Effect}
    (h : effect ∈ r.replicationBroadcasts) :
    ∃ (next : Nat) (names : List String) (request : AppendRequest),
      r.appendRequest? next = some request ∧ effect =
        .broadcast (r.peers.filter fun seat => names.contains seat.peer.name) (.append request) := by
  unfold Replica.replicationBroadcasts at h
  split at h
  · cases h
  · obtain ⟨⟨next, names⟩, -, hgroup⟩ := List.mem_filterMap.mp h
    obtain ⟨request, hrequest, heffect⟩ := Option.map_eq_some_iff.mp hgroup
    exact ⟨next, names, request, hrequest, heffect.symm⟩

@[simp] theorem answers_replicate : t.replicate.answers = t.answers := by
  have hnone : t.replica.replicationBroadcasts.filterMap Effect.answer? = [] := by
    rw [List.filterMap_eq_nil_iff]
    intro effect heffect
    obtain ⟨_, _, _, -, rfl⟩ := eq_broadcast_of_mem_replicationBroadcasts heffect
    rfl
  simp [replicate, hnone]

@[simp] theorem committed_replicate : t.replicate.committed = t.committed := by
  have hnone : t.replica.replicationBroadcasts.filterMap Effect.commit? = [] := by
    rw [List.filterMap_eq_nil_iff]
    intro effect heffect
    obtain ⟨_, _, _, -, rfl⟩ := eq_broadcast_of_mem_replicationBroadcasts heffect
    rfl
  simp [replicate, hnone]

/-- A call of replication goes to a peer and carries an append request of the present state. -/
theorem mem_calls_replicationBroadcasts {r : Replica} {seat : Seat} {request : Request}
    (h : (seat, request) ∈ r.replicationBroadcasts.flatMap Effect.calls) :
    seat ∈ r.peers ∧ ∃ next append, r.appendRequest? next = some append ∧
      request = .append append := by
  obtain ⟨effect, heffect, hcall⟩ := List.mem_flatMap.mp h
  obtain ⟨next, names, append, happend, rfl⟩ :=
    eq_broadcast_of_mem_replicationBroadcasts heffect
  obtain ⟨seat', hseat', heq⟩ := List.mem_map.mp hcall
  obtain ⟨rfl, rfl⟩ := Prod.mk.inj heq
  exact ⟨(List.mem_filter.mp hseat').1, next, append, happend, rfl⟩

end Replicating

/-! ## Taking the leadership -/

/-- A new leader has a fresh view of its peers; of the rest only timers, publication and commitment
are touched. -/
theorem exists_replica_becomeLeader (t : Turn) :
    ∃ commitIndex lastApplied,
      t.becomeLeader.replica =
        { t.replica with
          role := .leader
          election := none
          progress := some (Progress.start t.replica.peers.names t.replica.log.lastIndex)
          leader := some t.replica.name
          heartbeatTicker := true
          electionTicker := false
          published := ⟨.leader, t.replica.term, some t.replica.name⟩
          commitIndex, lastApplied } := by
  obtain ⟨commitIndex, lastApplied, h⟩ :=
    (t.prepareLeader.settle .leader).exists_replica_advanceCommitIndex
  refine ⟨commitIndex, lastApplied, ?_⟩
  rw [becomeLeader, replica_replicate, h, replica_settle, replica_prepareLeader]

/-- A new leader that finds nothing to commit is left as it was prepared. -/
theorem replica_becomeLeader_of_le (t : Turn) {index : Nat}
    (hmajority : (t.prepareLeader.settle .leader).replica.majorityIndex? = some index)
    (hle : index ≤ (t.prepareLeader.settle .leader).replica.commitIndex) :
    t.becomeLeader.replica = (t.prepareLeader.settle .leader).replica := by
  rw [becomeLeader, replica_replicate, advanceCommitIndex_of_le _ _ hmajority hle]

@[simp] theorem answers_becomeLeader (t : Turn) : t.becomeLeader.answers = t.answers := by
  simp [becomeLeader]

end Turn

end RaftReplica
