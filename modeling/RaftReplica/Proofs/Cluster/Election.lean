import RaftReplica.Proofs.Cluster.Play
import RaftReplica.Proofs.Replica.Mandate

/-!
# One leader a term

Whoever leads in a term has been voted for in that term by a majority, its own vote included.  A member
votes for one candidate a term, and two majorities have a member in common, so that there is at most one
leader a term.

* `Voted` says that a member has voted for a candidate in a term, at that time or earlier.
* `At.votedFor_of_inOffice`: candidates and leaders have their own vote.
* `At.backed`: the ballots of a candidate are votes for it in its term.
* `At.elected`: a majority has voted for a leader.
* `most_voted_unique`: only one candidate a term can have a majority.
-/

namespace RaftReplica

namespace Run

variable {names : List String} {run : Run names} {j k : Nat} {name : String} {r : Replica}

variable (run) in
/-- At time `k` or earlier a member has voted for a candidate in a term. -/
def Voted (k term : Nat) (candidate voter : String) : Prop :=
  ∃ j ≤ k, ∃ s, run.At j voter s ∧ s.term = term ∧ s.votedFor = some candidate

theorem Voted.mono {term : Nat} {candidate voter : String} (h : run.Voted j term candidate voter)
    (hjk : j ≤ k) : run.Voted k term candidate voter := by
  obtain ⟨i, hij, s, hs⟩ := h
  exact ⟨i, by omega, s, hs⟩

/-- Whoever is in office has its own vote. -/
theorem At.votedFor_of_inOffice (h : run.At k name r) (hoffice : r.InOffice) :
    r.votedFor = some name := by
  obtain ⟨first, hbelongs, hfresh, hbecomes⟩ := h.exists_first
  rw [← hbelongs.named]
  apply hbecomes.votedFor_of_inOffice ?_ hoffice
  rintro (hrole | hrole) <;>
    · rw [hfresh.role] at hrole
      cases hrole

/-- Whoever is in office has voted for itself in its term. -/
theorem At.voted_of_inOffice (h : run.At k name r) (hoffice : r.InOffice) :
    run.Voted k r.term name name :=
  ⟨k, Nat.le_refl k, r, h, rfl, h.votedFor_of_inOffice hoffice⟩

/-- **What a candidate counts are votes for itself in its term**, and a leader has a majority of them. -/
theorem At.backed (h : run.At k name r) : r.Backed names (run.Voted k r.term name) := by
  induction k generalizing r with
  | zero => exact .of_follower h.fresh.role
  | succ k ih =>
    obtain ⟨before, event, hbefore, hoffers, hhandles⟩ := at_of_succ h
    refine hhandles.backed (ih hbefore) run.begins.distinct hbefore.belongs.quorum ?_ ?_ ?_
    · intro hterm voter hvoter
      rw [hterm]
      exact hvoter.mono (Nat.le_succ k)
    · intro hoffice
      rw [hbefore.belongs.named]
      exact h.voted_of_inOffice hoffice
    · intro reply hevent _ hterm hpresent hgranted
      subst hevent
      obtain ⟨j, hjk, s, hs, hsterm, hvote⟩ := voteReply_given hoffers hgranted
      exact ⟨j, by omega, s, hs, by omega, hvote⟩

/-- **A leader has been voted for by a majority in its term.** -/
theorem At.elected (h : run.At k name r) (hleads : r.role = .leader) :
    Most names (run.Voted k r.term name) :=
  h.backed.leader hleads

/-- Only one candidate a term can have a majority. -/
theorem most_voted_unique {term : Nat} {candidate other : String}
    (h : Most names (run.Voted j term candidate)) (h' : Most names (run.Voted k term other)) :
    candidate = other := by
  obtain ⟨voter, -, ⟨i, -, s, hs, hterm, hvote⟩, ⟨i', -, s', hs', hterm', hvote'⟩⟩ := h.meet h'
  exact hs.vote_unique hs' (hterm.trans hterm'.symm) hvote hvote'

/-- **Election safety.**  Two leaders of one term, at whatever times of a run, are the same replica. -/
theorem election_safety {other : String} {s : Replica} (hr : run.At j name r)
    (hs : run.At k other s) (hleads : r.role = .leader) (hleads' : s.role = .leader)
    (hterm : r.term = s.term) : name = other := by
  have hmost := hr.elected hleads
  rw [hterm] at hmost
  exact most_voted_unique hmost (hs.elected hleads')

/-- The leader of the first term in the sample run is the same at two times. -/
theorem election_safety_sample :
    ∃ other r s, sample.At 3 "a" r ∧ sample.At 10 other s ∧ r.role = .leader ∧ s.role = .leader ∧
      r.term = s.term ∧ "a" = other := by
  obtain ⟨r, hr, hleads, hterm⟩ := sample.exists_at_of_any 3 "a"
    (fun r => r.role = .leader ∧ r.term = 1) (by decide +kernel)
  obtain ⟨s, hs, hleads', hterm'⟩ := sample.exists_at_of_any 10 "a"
    (fun r => r.role = .leader ∧ r.term = 1) (by decide +kernel)
  have hsame := hterm.trans hterm'.symm
  exact ⟨"a", r, s, hr, hs, hleads, hleads', hsame, election_safety hr hs hleads hleads' hsame⟩

end Run

end RaftReplica
