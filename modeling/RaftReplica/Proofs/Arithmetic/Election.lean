import RaftReplica.Proofs.Arithmetic.Log
import RaftReplica.Proofs.Quorum.Majority
import RaftReplica.Replica.Lifecycle

/-!
# Ballots in words

An election counts its ballots in sixteen bits.  It is not called for more members than that, and no member
is counted twice, so the count never leaves its word.

* `Election.Countable` is an election that was called for few enough members and counts members only.
* `countable_called` says that every election is countable when it is called, and `Countable.vote` that a vote
  keeps it so.
* `checkedVote_eq` says that a vote is counted without a fault.
-/

namespace RaftReplica.Election

open Checked (add)

/-! ## Counting -/

def checkedMajority (e : Election) : Checked Nat := add wordMax (e.members.size / 2) 1

def checkedPassed (e : Election) : Checked Bool := do
  let majority ← e.checkedMajority
  return majority ≤ e.ballots

def checkedVote (e : Election) (member : String) : Checked (Except VoteError (Bool × Election)) := do
  if !e.members.contains member then return .error (.notAMember member)
  if e.voters.contains member then return .error (.alreadyVoted member)
  let ballots ← add maxMembers e.ballots 1
  let majority ← e.checkedMajority
  return .ok (majority ≤ ballots, { e with voters := e.voters.insert member })

/-! ## Elections that can be counted -/

/-- An election of no more members than are counted, in which nobody else has voted. -/
structure Countable (e : Election) : Prop where
  few : e.members.size ≤ maxMembers
  members : ∀ voter ∈ e.voters, voter ∈ e.members

variable {e after : Election} {member : String} {passed : Bool}

theorem countable_called {q : Quorum} (h : q.election = .ok e) : e.Countable := by
  obtain ⟨hmembers, hnobody⟩ := Quorum.election_ok h
  refine ⟨?_, fun voter hvoter => absurd hvoter (hnobody voter)⟩
  rw [hmembers]
  unfold Quorum.election at h
  split at h
  · cases h
  · split at h
    · cases h
    · rename_i hfew
      exact Nat.not_lt.mp hfew

theorem Countable.vote (h : e.Countable) (hvote : e.vote member = .ok (passed, after)) :
    after.Countable := by
  obtain ⟨-, hmembers, hmember, hvoters⟩ := vote_ok hvote
  refine ⟨hmembers ▸ h.few, ?_⟩
  intro voter hvoter
  rw [hmembers]
  rcases (hvoters voter).mp hvoter with rfl | hbefore
  · exact hmember
  · exact h.members voter hbefore

theorem Countable.castOwnVote (h : e.Countable) (name : String) :
    (Turn.castOwnVote e name).Countable := by
  unfold Turn.castOwnVote
  cases hvote : e.vote name with
  | error cause => exact h
  | ok result => exact h.vote hvote

/-- While a member has not voted, fewer have voted than there are members. -/
theorem Countable.ballots_lt (h : e.Countable) (hmember : member ∈ e.members)
    (hfree : member ∉ e.voters) : e.ballots < e.members.size := by
  -- with the member, the voters are still different members
  have hnodup : (member :: e.voters.toList).Nodup :=
    List.nodup_cons.mpr ⟨fun hvoted => hfree (Std.TreeSet.mem_toList.mp hvoted), e.voters.nodup_toList⟩
  have hsubset : (member :: e.voters.toList) ⊆ e.members.toList := by
    intro voter hvoter
    rw [Std.TreeSet.mem_toList]
    rcases List.mem_cons.mp hvoter with rfl | hvoted
    · exact hmember
    · exact h.members voter (Std.TreeSet.mem_toList.mp hvoted)
  have hlength := (hnodup.subperm hsubset).length_le
  rwa [List.length_cons, Std.TreeSet.length_toList, Std.TreeSet.length_toList] at hlength

/-! ## No fault -/

theorem Countable.checkedMajority_eq (h : e.Countable) : e.checkedMajority = .ok e.majority := by
  have hfew := h.few
  unfold maxMembers at hfew
  exact Checked.add_eq (by unfold wordMax; omega)

theorem Countable.checkedPassed_eq (h : e.Countable) : e.checkedPassed = .ok e.passed := by
  unfold checkedPassed
  rw [h.checkedMajority_eq]
  rfl

theorem Countable.checkedVote_eq (h : e.Countable) (member : String) :
    e.checkedVote member = .ok (e.vote member) := by
  unfold checkedVote Election.vote
  cases hmember : e.members.contains member with
  | false => rfl
  | true =>
    cases hvoted : e.voters.contains member with
    | true => rfl
    | false =>
      have hmem : member ∈ e.members := Std.TreeSet.contains_iff_mem.mp hmember
      have hfree : member ∉ e.voters := by
        rw [← Std.TreeSet.contains_iff_mem, hvoted]
        exact Bool.false_ne_true
      have hroom : e.ballots + 1 ≤ maxMembers := Nat.le_trans (h.ballots_lt hmem hfree) h.few
      have hcounted : (e.voters.insert member).size = e.ballots + 1 := by
        rw [Std.TreeSet.size_insert, hvoted]
        rfl
      have hpassed : ({ e with voters := e.voters.insert member } : Election).passed =
          decide (e.majority ≤ e.ballots + 1) := by
        rw [passed, majority, ballots, hcounted]
        rfl
      simp only [Bool.not_true, Bool.false_eq_true, if_false, Checked.pure_eq, Checked.ok_bind,
        Checked.add_eq hroom, h.checkedMajority_eq, hpassed]

end RaftReplica.Election
