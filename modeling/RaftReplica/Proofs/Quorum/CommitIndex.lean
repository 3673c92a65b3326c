import Mathlib.Order.Bounds.Defs
import RaftReplica.Proofs.Replica.Progress

/-!
# The commit index and the votes

A leader commits by the matches of its peers, and a candidate is elected by votes.  The two are counted in
different ways: the commit index is an element of the sorted matches, in which the leader has none, and an
election counts the members of the quorum, the leader among them.  They meet all the same.  The commit index
is the highest index that as many members hold as it takes to elect a leader, so that whoever is elected has
the vote of somebody who holds it.

* `Election.poll` lets names vote one after the other, and `Among.poll` says whom it counts.
* `isGreatest_clusterCommitIndex` is the commit index as the highest one that a majority reaches.
* `clusterCommitIndex_perm` and `clusterCommitIndex_mono` say what it does not depend on and how it grows.
* `most_of_matched` is the majority that the leader and the peers that reach the commit index make up.
-/

namespace RaftReplica

namespace Election

/-- The election once names have voted one after the other.  A vote that may not be cast changes nothing. -/
def poll (e : Election) : List String → Election
  | [] => e
  | name :: rest =>
    match e.vote name with
    | .ok (_, e) => poll e rest
    | .error _ => poll e rest

/-- A poll counts some of those who vote in it. -/
theorem Among.poll {names : List String} {P : String → Prop} {e : Election} (h : e.Among names P)
    {voters : List String} (hvoters : ∀ voter ∈ voters, P voter) : (e.poll voters).Among names P := by
  induction voters generalizing e with
  | nil => exact h
  | cons voter rest ih =>
    have hrest : ∀ voter ∈ rest, P voter := fun other hother => hvoters other (List.mem_cons_of_mem _ hother)
    unfold Election.poll
    cases hvote : e.vote voter with
    | error => exact ih h hrest
    | ok counted => exact ih (h.vote hvote (hvoters voter List.mem_cons_self)) hrest

/-- If a poll of a quorum passes, the voters include a majority of its members. -/
theorem most_of_poll {q : Quorum} {members : List String} (hnodup : members.Nodup)
    (hmembers : ∀ name, name ∈ q.hosts ↔ name ∈ members) {e : Election} (hcalled : q.election = .ok e)
    {voters : List String} (hpassed : (e.poll voters).passed = true) :
    Most members (· ∈ voters) := by
  obtain ⟨hhosts, hnobody⟩ := Quorum.election_ok hcalled
  have hamong : e.Among members (· ∈ voters) :=
    ⟨hhosts ▸ hmembers, fun voter hvoter => absurd hvoter (hnobody voter)⟩
  exact (hamong.poll fun _ hvoter => hvoter).most hnodup hpassed

end Election

namespace Progress

variable {matched matched' : List Nat} {index : Nat}

/-- There is a commit index as soon as there are peers. -/
theorem exists_clusterCommitIndex (h : matched ≠ []) : ∃ index, clusterCommitIndex matched = some index := by
  have hpos := List.length_pos_iff.mpr h
  have hlt : matched.length / 2 < (matched.mergeSort fun a b => a ≤ b).length := by
    rw [List.length_mergeSort]
    omega
  exact ⟨_, List.getElem?_eq_getElem hlt⟩

/-- The commit index is the highest index that is reached by as many members as it takes to elect one of
them, if all peers but the leader are asked and the leader is counted in. -/
theorem isGreatest_clusterCommitIndex (h : clusterCommitIndex matched = some index) :
    IsGreatest {c | (matched.length + 1) / 2 + 1 ≤ (matched.countP fun m => c ≤ m) + 1} index := by
  have hhalf : matched.length - matched.length / 2 = (matched.length + 1) / 2 := by omega
  constructor
  · have hreached := (le_clusterCommitIndex_iff h index).mp (Nat.le_refl index)
    rw [hhalf] at hreached
    exact Nat.succ_le_succ hreached
  · intro c hc
    rw [le_clusterCommitIndex_iff h, hhalf]
    exact Nat.le_of_succ_le_succ hc

/-- If at least as many of as many matches reach each bound, the commit index is at least as high. -/
theorem exists_clusterCommitIndex_ge (h : clusterCommitIndex matched = some index)
    (hlength : matched'.length = matched.length)
    (hcount : ∀ bound, matched.countP (fun m => bound ≤ m) ≤ matched'.countP fun m => bound ≤ m) :
    ∃ index', clusterCommitIndex matched' = some index' ∧ index ≤ index' := by
  have hpeers : matched' ≠ [] := by
    rintro rfl
    rw [List.eq_nil_of_length_eq_zero hlength.symm] at h
    simp [clusterCommitIndex] at h
  obtain ⟨index', hindex'⟩ := exists_clusterCommitIndex hpeers
  refine ⟨index', hindex', (le_clusterCommitIndex_iff hindex' index).mpr ?_⟩
  rw [hlength]
  exact Nat.le_trans ((le_clusterCommitIndex_iff h index).mp (Nat.le_refl index)) (hcount index)

/-- The order of the matches does not matter. -/
theorem clusterCommitIndex_perm (hperm : matched'.Perm matched)
    (h : clusterCommitIndex matched = some index) : clusterCommitIndex matched' = some index := by
  have hcount : ∀ bound, matched'.countP (fun m => bound ≤ m) = matched.countP fun m => bound ≤ m :=
    fun bound => hperm.countP_eq _
  obtain ⟨index', hindex', hle⟩ :=
    exists_clusterCommitIndex_ge h hperm.length_eq fun bound => Nat.le_of_eq (hcount bound).symm
  obtain ⟨index'', hindex'', hge⟩ :=
    exists_clusterCommitIndex_ge hindex' hperm.length_eq.symm fun bound => Nat.le_of_eq (hcount bound)
  obtain rfl : index = index'' := Option.some.inj (h.symm.trans hindex'')
  rw [hindex', Nat.le_antisymm hge hle]

/-- If matches grow, the commit index does not fall. -/
theorem clusterCommitIndex_mono (hgrown : List.Forall₂ (· ≤ ·) matched matched')
    (h : clusterCommitIndex matched = some index) :
    ∃ index', clusterCommitIndex matched' = some index' ∧ index ≤ index' := by
  refine exists_clusterCommitIndex_ge h hgrown.length_eq.symm fun bound => ?_
  clear h
  induction hgrown with
  | nil => exact Nat.le_refl _
  | cons hle _ ih =>
    simp only [List.countP_cons, decide_eq_true_eq]
    split <;> split <;> omega

/-- The leader and the peers that reach the commit index are a majority. -/
theorem most_of_matched {leader : String} {peers : List String} {matchOf : String → Nat}
    (hnodup : (leader :: peers).Nodup) (h : clusterCommitIndex (peers.map matchOf) = some index) :
    Most (leader :: peers) fun name => name = leader ∨ name ∈ peers ∧ index ≤ matchOf name := by
  have hsub : (peers.filter fun peer => index ≤ matchOf peer).Sublist peers := List.filter_sublist
  have hcount := (le_clusterCommitIndex_iff h index).mp (Nat.le_refl index)
  rw [List.countP_map, List.countP_eq_length_filter, List.length_map] at hcount
  refine ⟨leader :: peers.filter fun peer => index ≤ matchOf peer, ?_, ?_, ?_, ?_⟩
  · exact hnodup.sublist (hsub.cons_cons leader)
  · exact (hsub.cons_cons leader).subset
  · simp only [List.length_cons]
    change _ ≤ (peers.filter fun peer => index ≤ matchOf peer).length at hcount
    omega
  · intro name hname
    rcases List.mem_cons.mp hname with rfl | hpeer
    · exact Or.inl rfl
    · obtain ⟨hpeer, hreaches⟩ := List.mem_filter.mp hpeer
      exact Or.inr ⟨hpeer, of_decide_eq_true hreaches⟩

/-- **The commit index is the best that a majority allows**, and the majority is that of elections.  For
given matches of at least one peer it is the highest index that enough of them reach: with the leader
counted in, as many members as it takes to pass an election in which the leader and all peers may vote.  It
does not depend on the order of the matches, and it never falls while they grow.  So among the leader and
the peers that reach it there is a voter of every election over them that passes, whoever votes in it and in
whatever order. -/
theorem clusterCommitIndex_best {matched : List Nat} (hpeers : matched ≠ []) :
    ∃ index, clusterCommitIndex matched = some index ∧
      IsGreatest {c | (matched.length + 1) / 2 + 1 ≤ (matched.countP fun m => c ≤ m) + 1} index ∧
      (∀ (q : Quorum) (e : Election), q.size = matched.length + 1 → q.election = .ok e →
        e.majority = (matched.length + 1) / 2 + 1) ∧
      (∀ matched' : List Nat, matched'.Perm matched → clusterCommitIndex matched' = some index) ∧
      (∀ matched' : List Nat, List.Forall₂ (· ≤ ·) matched matched' →
        ∃ index', clusterCommitIndex matched' = some index' ∧ index ≤ index') ∧
      ∀ (q : Quorum) (leader : String) (peers : List String) (matchOf : String → Nat),
        (leader :: peers).Nodup → (∀ host, q.contains host = true ↔ host ∈ leader :: peers) →
        peers.map matchOf = matched →
        ∀ e, q.election = .ok e → ∀ voters, (e.poll voters).passed = true →
          ∃ name ∈ voters, name = leader ∨ name ∈ peers ∧ index ≤ matchOf name := by
  obtain ⟨index, hindex⟩ := exists_clusterCommitIndex hpeers
  refine ⟨index, hindex, isGreatest_clusterCommitIndex hindex, ?_,
    fun _ hperm => clusterCommitIndex_perm hperm hindex,
    fun _ hgrown => clusterCommitIndex_mono hgrown hindex, ?_⟩
  · intro q e hsize hcalled
    obtain ⟨hmembers, -⟩ := Quorum.election_ok hcalled
    rw [Election.majority, hmembers, ← hsize, Quorum.size]
  · intro q leader peers matchOf hnodup hhosts hmatched e hcalled voters hpassed
    have hmembers : ∀ name, name ∈ q.hosts ↔ name ∈ leader :: peers := by
      intro name
      rw [← hhosts name, Quorum.contains, Std.TreeSet.contains_iff_mem]
    have hvoters := Election.most_of_poll hnodup hmembers hcalled hpassed
    obtain ⟨name, -, hvotes, hreaches⟩ := hvoters.meet (most_of_matched hnodup (hmatched ▸ hindex))
    exact ⟨name, hvotes, hreaches⟩

/-- How far the peers of `a` are known to match. -/
def sampleMatch : String → Nat
  | "b" => 0
  | "c" => 9
  | _ => 8

/-- Four peers match up to 0, 9, 8 and 8, which makes 8 the commit index.  An election is passed by `b`, `d`
and `e` without the leader, although a stranger tries to vote and `b` tries twice, and two of its three
voters reach the commit index. -/
theorem clusterCommitIndex_best_sample :
    let q := (Quorum.form Sequence.new ["a", "b", "c", "d", "e"]).1
    [0, 9, 8, 8] ≠ ([] : List Nat) ∧ clusterCommitIndex [0, 9, 8, 8] = some 8 ∧
      clusterCommitIndex [8, 8, 0, 9] = some 8 ∧
      ∃ e, q.election = .ok e ∧ e.majority = 3 ∧
        (e.poll ["b", "x", "b", "d", "e"]).passed = true ∧
          ∃ name ∈ ["b", "x", "b", "d", "e"], name = "a" ∨
            name ∈ ["b", "c", "d", "e"] ∧ 8 ≤ sampleMatch name := by
  intro q
  obtain ⟨index, hindex, -, hmajority, hperm, -, hmeet⟩ :=
    clusterCommitIndex_best (show [0, 9, 8, 8] ≠ [] by decide)
  obtain rfl : index = 8 := by
    simpa [clusterCommitIndex, List.mergeSort, List.MergeSort.Internal.splitInTwo] using hindex.symm
  have hhosts : ∀ host, q.contains host = true ↔ host ∈ ["a", "b", "c", "d", "e"] := by
    intro host
    have hnamed : host ∈ ["a", "b", "c", "d", "e"] → host ≠ "" := by
      rintro hhost rfl
      revert hhost
      decide
    rw [Quorum.contains, Std.TreeSet.contains_iff_mem]
    exact Quorum.mem_hostSet.trans (and_iff_left_of_imp hnamed)
  let e : Election := ⟨q.id, q.hosts, ∅⟩
  have hcalled : q.election = .ok e := rfl
  have hpassed : (e.poll ["b", "x", "b", "d", "e"]).passed = true := by decide +kernel
  refine ⟨by decide, hindex, hperm _ (by decide), e, hcalled, hmajority q e (by decide +kernel) hcalled,
    hpassed, ?_⟩
  exact hmeet q "a" ["b", "c", "d", "e"] sampleMatch (by decide) hhosts (by decide) e hcalled _ hpassed

end Progress

end RaftReplica
