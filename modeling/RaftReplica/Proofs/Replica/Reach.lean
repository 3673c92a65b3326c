import RaftReplica.Proofs.Replica.Bookkeeping
import RaftReplica.Proofs.Replica.CommitStream

/-!
# How far a leader commits

A leader commits up to what a majority holds, if that ends in an entry of its own term.  How far it commits
in the end does not depend on whether it has committed before.

* `Replica.reach` is the index that a leader commits up to, and `Replica.reached` the replica when it has.
* `Replica.Steady` is what holds of the commit index and of a leader's books between events.
* `Replica.reach_written` says that a leader reaches as far with one more entry whether or not it has
  committed before it appends that.
* `Turn.advanceCommitIndex_eq` says that a turn commits up to there.
-/

namespace RaftReplica

/-! ## The index -/

namespace Replica

/-- The index that a leader commits up to. -/
def reach (r : Replica) : Nat :=
  match r.majorityIndex? with
  | none => r.commitIndex
  | some index =>
    if r.commitIndex < index ∧ r.log.termAt? index = some r.term then index else r.commitIndex

/-- Between events a replica has published all that it has committed, and a leader keeps its books. -/
structure Steady (r : Replica) : Prop where
  applied : r.lastApplied = r.commitIndex
  booked : r.role = .leader → ∃ progress, r.progress = some progress ∧ r.Booked progress

theorem Steady.handle {r : Replica} (h : r.Steady) (event : Event) :
    (r.handle event).1.replica.Steady :=
  ⟨((r.commits_handle event).publishes h.applied).applied, (r.handles_handle event).booked h.booked⟩

/-- A majority is known to hold nothing that is beyond the leader's log. -/
theorem Booked.clusterCommitIndex_le {r : Replica} {progress : Progress} {index : Nat}
    (h : r.Booked progress) (hindex : clusterCommitIndex progress.matched = some index) :
    index ≤ r.log.lastIndex := by
  have hmem : index ∈ progress.matched := List.mem_mergeSort.mp (List.mem_of_getElem? hindex)
  obtain ⟨⟨name, p⟩, hrecord, rfl⟩ := List.mem_map.mp hmem
  exact (h.fits name p (Progress.mem_records.mp hrecord)).matched_le

/-- The replica with one more entry of its term. -/
def written (r : Replica) (data : Bytes) : Replica := { r with log := (r.log.append r.term data).2 }

/-- The replica with everything committed that it may commit. -/
def reached (r : Replica) : Replica := { r with commitIndex := r.reach, lastApplied := r.reach }

theorem le_reach (r : Replica) : r.commitIndex ≤ r.reach := by
  unfold reach
  split
  · exact Nat.le_refl _
  · split
    · rename_i h
      exact Nat.le_of_lt h.1
    · exact Nat.le_refl _

/-- A leader commits within its log, if it commits anything. -/
theorem reach_cases (r : Replica) : r.reach = r.commitIndex ∨ r.reach ≤ r.log.lastIndex := by
  unfold reach
  split
  · exact Or.inl rfl
  · split
    · rename_i h
      exact Or.inr (Log.le_length_of_termAt? h.2)
    · exact Or.inl rfl

theorem reach_of_progress {r : Replica} {progress : Progress} (h : r.progress = some progress) :
    r.reach =
      let index := (clusterCommitIndex progress.matched).getD r.log.lastIndex
      if r.commitIndex < index ∧ r.log.termAt? index = some r.term then index else r.commitIndex := by
  simp only [reach, majorityIndex?, h, Option.map_some]

/-- A leader that has committed what it may before it appends an entry commits as far in the end as one that
has not. -/
theorem reach_written {r : Replica} (hsteady : r.Steady) (hleads : r.role = .leader) (data : Bytes) :
    (r.reached.written data).reach = (r.written data).reach := by
  obtain ⟨progress, hprogress, hbooked⟩ := hsteady.booked hleads
  have hreach := reach_of_progress hprogress
  have hwritten : (r.written data).progress = some progress := hprogress
  have hreached : (r.reached.written data).progress = some progress := hprogress
  rw [reach_of_progress hreached, reach_of_progress hwritten]
  cases hmajority : clusterCommitIndex progress.matched with
  | some index =>
    -- peers decide, and they hold none but old entries
    have hold : (r.written data).log.termAt? index = r.log.termAt? index :=
      Log.termAt?_append_of_le (hbooked.clusterCommitIndex_le hmajority) _ _
    show (if r.reach < index ∧ (r.written data).log.termAt? index = some r.term then index
        else r.reach) =
      if r.commitIndex < index ∧ (r.written data).log.termAt? index = some r.term then index
      else r.commitIndex
    rw [hold, hreach, hmajority, Option.getD_some]
    by_cases hcommits : r.commitIndex < index ∧ r.log.termAt? index = some r.term
    · simp [hcommits]
    · rw [if_neg hcommits, if_neg hcommits]
  | none =>
    -- the replica is alone, and commits its last entry
    have hlast : (r.written data).log.lastIndex = r.log.lastIndex + 1 := Log.lastIndex_append ..
    have hnew : (r.written data).log.termAt? (r.log.lastIndex + 1) = some r.term :=
      Log.termAt?_append_last ..
    show (if r.reach < (r.written data).log.lastIndex ∧
          (r.written data).log.termAt? (r.written data).log.lastIndex = some r.term
        then (r.written data).log.lastIndex else r.reach) =
      if r.commitIndex < (r.written data).log.lastIndex ∧
          (r.written data).log.termAt? (r.written data).log.lastIndex = some r.term
        then (r.written data).log.lastIndex else r.commitIndex
    rw [hlast, hnew, hreach, hmajority, Option.getD_none]
    simp only [and_true]
    by_cases hcommits : r.commitIndex < r.log.lastIndex ∧
        r.log.termAt? r.log.lastIndex = some r.term
    · rw [if_pos hcommits, if_pos (Nat.lt_succ_self _), if_pos (by omega)]
    · rw [if_neg hcommits]

theorem reached_written {r : Replica} (hsteady : r.Steady) (hleads : r.role = .leader) (data : Bytes) :
    (r.reached.written data).reached = (r.written data).reached := by
  show { r.written data with
      commitIndex := (r.reached.written data).reach
      lastApplied := (r.reached.written data).reach } = (r.written data).reached
  rw [reach_written hsteady hleads data]
  rfl

theorem reached_of_reach_eq {r : Replica} (happlied : r.lastApplied = r.commitIndex)
    (h : r.reach = r.commitIndex) : r.reached = r := by
  unfold reached
  rw [h]
  cases r
  cases happlied
  rfl

end Replica

/-! ## In a turn -/

namespace Turn

variable {t : Turn}

theorem advanceCommitIndex_eq (t : Turn) :
    t.advanceCommitIndex =
      if t.replica.commitIndex < t.replica.reach then t.commitTo t.replica.reach else t := by
  unfold advanceCommitIndex Replica.reach
  cases t.replica.majorityIndex? with
  | none => simp
  | some index =>
    by_cases hcommits : t.replica.commitIndex < index ∧
        t.replica.log.termAt? index = some t.replica.term
    · simp [hcommits]
    · simp [if_neg hcommits]

theorem replica_advanceCommitIndex (happlied : t.replica.lastApplied = t.replica.commitIndex) :
    t.advanceCommitIndex.replica = t.replica.reached := by
  rw [advanceCommitIndex_eq]
  have hle := t.replica.le_reach
  split
  · rw [replica_commitTo, happlied, Nat.max_eq_right hle]
    rfl
  · have hsame : t.replica.reach = t.replica.commitIndex := by omega
    exact (Replica.reached_of_reach_eq happlied hsame).symm

/-- What is put on the commit stream is what the log holds up to where the leader commits. -/
theorem committed_advanceCommitIndex (happlied : t.replica.lastApplied = t.replica.commitIndex) :
    t.advanceCommitIndex.committed =
      t.committed ++ (t.replica.log.entries.take t.replica.reach).drop t.replica.commitIndex := by
  rw [advanceCommitIndex_eq]
  have hle := t.replica.le_reach
  split
  · rw [committed_commitTo, happlied]
  · have hsame : t.replica.reach = t.replica.commitIndex := by omega
    rw [hsame, List.drop_eq_nil_of_le (List.length_take_le _ _), List.append_nil]

/-- A batch that is appended leaves alone what is committed, and the books in order. -/
theorem steady_foldl_writeOne (hsteady : t.replica.Steady) (batch : List WriteAhead) :
    (batch.foldl writeOne t).replica.Steady := by
  rw [replica_foldl_writeOne]
  refine ⟨hsteady.applied, fun hleads => ?_⟩
  obtain ⟨progress, hprogress, hbooked⟩ := hsteady.booked hleads
  exact ⟨progress, hprogress, hbooked.mono rfl (Log.isPrefix_appendAll _ _ _).length_le⟩

end Turn

theorem Life.steady (life : Life) (k : Nat) : (life.state k).Steady :=
  ⟨life.lastApplied_eq k, fun hleads => life.booked hleads⟩

end RaftReplica
