import Mathlib.Data.List.Chain
import RaftReplica.Proofs.Replica.Change

/-!
# What listeners learn

A replica publishes what it is, in which term and whom it follows, and stays silent if that is what it has
published last.  For each part of a turn this file says what the part adds to the news.

* `Snapshot.change` is the news between two snapshots: the later one, or none if they are the same.
* `Snapshot.Precedes` orders news: one snapshot differs from the next, which is of no earlier term.
  `Snapshot.isChain_append_change` keeps this order.
* `published_stepDown`, `published_stand` and `published_becomeLeader` are the news of the three ways to
  take a role.  The other parts of a turn are no news.
-/

namespace RaftReplica

/-! ## The order of news -/

namespace Snapshot

/-- The news for those who know the one snapshot when it comes to the other. -/
def change (before after : Snapshot) : List Snapshot := if before = after then [] else [after]

/-- Whether one snapshot may be published right after another. -/
def Precedes (before after : Snapshot) : Prop := before ≠ after ∧ before.term ≤ after.term

instance : DecidableRel Precedes := fun _ _ => inferInstanceAs (Decidable (_ ∧ _))

variable {history : List Snapshot} {before after : Snapshot}

@[simp] theorem change_self (snapshot : Snapshot) : snapshot.change snapshot = [] := by
  simp [change]

theorem change_of_ne (h : before ≠ after) : before.change after = [after] := if_neg h

/-- News of a term that is not earlier can be told after what was told before. -/
theorem isChain_append_change (hchain : history.IsChain Precedes)
    (hlast : history.getLast? = some before) (hterm : before.term ≤ after.term) :
    (history ++ before.change after).IsChain Precedes := by
  by_cases h : before = after
  · rw [h, change_self, List.append_nil]
    exact hchain
  · rw [change_of_ne h, List.isChain_append]
    refine ⟨hchain, List.isChain_singleton _, ?_⟩
    intro last hlast' first hfirst
    rw [hlast, Option.mem_some_iff] at hlast'
    rw [List.head?_cons, Option.mem_some_iff] at hfirst
    subst hlast' hfirst
    exact ⟨h, hterm⟩

/-- Whoever hears the news knows the later snapshot. -/
theorem getLast?_append_change (hlast : history.getLast? = some before) :
    (history ++ before.change after).getLast? = some after := by
  by_cases h : before = after
  · rw [h, change_self, List.append_nil, hlast, h]
  · rw [change_of_ne h, List.getLast?_concat]

end Snapshot

namespace Turn

/-! ## Elementary updates -/

section Elementary

variable (r : Replica) (t : Turn) (effect : Effect) (effects : List Effect)
  (change : Replica → Replica) (tick : Tick)

@[simp] theorem published_start : (start r).published = [] := rfl

@[simp] theorem published_update : (t.update change).published = t.published := rfl

@[simp] theorem published_emit :
    (t.emit effect).published = t.published ++ effect.publish?.toList := by
  simp only [published, effects_emit, List.filterMap_append]
  cases h : effect.publish? <;> simp [h]

@[simp] theorem published_emitAll :
    (t.emitAll effects).published = t.published ++ effects.filterMap Effect.publish? := by
  simp [published]

/-- Publishing tells what has changed. -/
@[simp] theorem published_publish :
    t.publish.published = t.published ++ t.replica.published.change t.replica.snapshot := by
  unfold publish Snapshot.change
  split <;> simp [Effect.publish?]

@[simp] theorem published_startTicker : (t.startTicker tick).published = t.published := by
  simp [startTicker, Effect.publish?]

@[simp] theorem published_stopTicker : (t.stopTicker tick).published = t.published := by
  unfold stopTicker
  split <;> simp [Effect.publish?]

@[simp] theorem published_interruptTicker : (t.interruptTicker tick).published = t.published := by
  unfold interruptTicker
  split <;> simp [Effect.publish?]

end Elementary

/-! ## Roles -/

section Roles

variable (t : Turn)

@[simp] theorem published_settle (role : Role) :
    (t.settle role).published =
      t.published ++ t.replica.published.change ⟨role, t.replica.term, t.replica.leader⟩ := by
  simp [settle, Replica.snapshot]

@[simp] theorem published_leaveOffice : t.leaveOffice.published = t.published := rfl

@[simp] theorem published_prepareFollower : t.prepareFollower.published = t.published := by
  unfold prepareFollower
  by_cases h : t.replica.electionTicker <;> simp [h, Replica.setTicker_eq]

@[simp] theorem published_prepareLeader : t.prepareLeader.published = t.published := by
  simp [prepareLeader]

/-- Stepping down is told with the term and the leader that the replica then knows of. -/
theorem published_stepDown (term : Nat) (leader : Option String) :
    (t.stepDown term leader).published =
      t.published ++ t.replica.published.change ⟨.follower, max t.replica.term term, leader⟩ := by
  unfold stepDown
  by_cases hterm : t.replica.term < term
  · have hmax : max t.replica.term term = term := by omega
    by_cases hrole : t.replica.role = .follower <;> simp [hrole, hterm, hmax, Replica.snapshot]
  · have hmax : max t.replica.term term = t.replica.term := by omega
    by_cases hrole : t.replica.role = .follower <;> simp [hrole, hterm, hmax, Replica.snapshot]

@[simp] theorem published_enterNextTerm : t.enterNextTerm.published = t.published := rfl

/-- A candidacy is told with the term in which the replica stands. -/
theorem published_stand (election : Election) :
    (t.stand election).published =
      t.published ++ t.replica.published.change ⟨.candidate, t.replica.term + 1, none⟩ := by
  simp [stand]

/-! ## Committing and replicating -/

@[simp] theorem published_commitTo (index : Nat) : (t.commitTo index).published = t.published := by
  simp [commitTo, applyCommitted, List.filterMap_map, Function.comp_def, Effect.publish?]

@[simp] theorem published_advanceCommitIndex : t.advanceCommitIndex.published = t.published := by
  rcases t.advanceCommitIndex_cases with h | ⟨index, -, -, -, h⟩ <;> simp [h]

@[simp] theorem published_replicate : t.replicate.published = t.published := by
  have hnone : t.replica.replicationBroadcasts.filterMap Effect.publish? = [] := by
    rw [List.filterMap_eq_nil_iff]
    intro effect heffect
    obtain ⟨_, _, _, -, rfl⟩ := eq_broadcast_of_mem_replicationBroadcasts heffect
    rfl
  simp [replicate, hnone]

/-- Whoever comes to lead tells so, whatever it then commits. -/
theorem published_becomeLeader :
    t.becomeLeader.published =
      t.published ++
        t.replica.published.change ⟨.leader, t.replica.term, some t.replica.name⟩ := by
  simp [becomeLeader]

@[simp] theorem published_respond (write : WriteAhead) (answer : Answer) :
    (t.respond write answer).published = t.published := by
  unfold respond
  split <;> simp [Effect.publish?]

/-- To write or to refuse is no news. -/
@[simp] theorem published_onWriteAheads (batch : List WriteAhead) :
    (t.onWriteAheads batch).published = t.published := by
  unfold onWriteAheads
  split
  · rw [published_replicate, published_advanceCommitIndex]
    exact t.eq_of_foldl published (by simp [writeOne]) batch
  · exact t.eq_of_foldl published (by simp [refuseOne]) batch

@[simp] theorem published_accept (request : AppendRequest) :
    (t.accept request).published = t.published := by
  unfold accept commitBeyond
  split <;> simp

end Roles

end Turn

end RaftReplica
