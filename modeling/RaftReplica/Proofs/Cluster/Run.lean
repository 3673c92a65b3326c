import RaftReplica.Proofs.Cluster.Step
import RaftReplica.Proofs.Quorum.Majority
import RaftReplica.Proofs.Replica.Becomes
import RaftReplica.Proofs.Replica.Bootstrap

/-!
# Runs of a cluster

A run begins with freshly started replicas that all have one another in their rosters, and goes on step
by step.  It may pause, so that a finite run is one that pauses for good.  What is said of all runs is
said of every number of replicas, every order of events and everything that a network may do.

* `Begins` says how a cluster begins, and `Run` is a run from there.
* `Run.At` is a member's state at a time.  `at_of_succ` follows it back by one step.
* `fresh` is where everybody begins, and `exists_first` leads back to it from any later time.
* `belongs` is what stays: a name, a quorum of all names, and all others as peers.
* `becomes` leads from one time to any later one, so that terms never fall (`term_le`) and there is one
  vote a term (`vote_unique`).
-/

namespace RaftReplica

/-! ## Beginnings -/

namespace Replica

/-- A member of a cluster of some names: its own name is one of them, its quorum are all of them, and
its peers are all others. -/
structure Belongs (names : List String) (name : String) (r : Replica) : Prop where
  member : name ∈ names
  named : r.name = name
  quorum : ∀ other, other ∈ r.quorum.hosts ↔ other ∈ names
  peers : ∀ other, other ∈ r.peers.names ↔ other ∈ names ∧ other ≠ name

theorem Belongs.of_sameMember {names : List String} {name : String} {r r' : Replica}
    (h : r.Belongs names name) (hsame : r.SameMember r') : r'.Belongs names name := by
  obtain ⟨hname, hquorum, hpeers⟩ := hsame
  exact ⟨h.member, hname ▸ h.named, hquorum ▸ h.quorum, hpeers ▸ h.peers⟩

/-- Whoever is created with all others in its roster, and started, belongs to the cluster and is
fresh. -/
theorem belongs_and_fresh {names : List String} {name : String} {roster : Roster}
    {options : Options} {r : Replica} {t : Turn} (hname : name ∈ names) (hnamed : "" ∉ names)
    (hroster : ∀ other, other ≠ name → (other ∈ roster.names ↔ other ∈ names))
    (hcreate : Replica.create name roster options = .ok r) (hstart : r.bootstrap = (t, .ok ())) :
    t.replica.Belongs names name ∧ t.replica.Fresh ∧ t.committed = [] := by
  have hcreated := create_ok hcreate
  obtain ⟨-, -, hquorum, hpeers, -⟩ := bootstrap_ok hcreated.bootstrapped hstart
  obtain ⟨hnamed', hfresh, hstream⟩ := hcreated.fresh hstart
  have hothers : ∀ other, other ∈ r.peers.names ↔ other ∈ names ∧ other ≠ name := by
    intro other
    rw [hcreated.peers, and_congr_left_iff]
    exact hroster other
  refine ⟨⟨hname, hnamed', ?_, ?_⟩, hfresh, hstream⟩
  · intro other
    rw [hquorum, hcreated.quorum, hothers]
    constructor
    · rintro ⟨h | rfl, -⟩
      · exact h.1
      · exact hname
    · intro h
      refine ⟨?_, fun hempty => hnamed (hempty ▸ h)⟩
      by_cases heq : other = name
      · exact Or.inr heq
      · exact Or.inl ⟨h, heq⟩
  · intro other
    rw [hpeers]
    exact hothers other

end Replica

namespace Cluster

/-- A cluster of freshly started replicas of these names, each with all others in its roster and
perhaps with itself, and with nothing under way. -/
structure Begins (names : List String) (c : Cluster) : Prop where
  distinct : names.Nodup
  named : "" ∉ names
  started : ∀ name ∈ names, ∃ (roster : Roster) (options : Options) (r : Replica) (t : Turn),
    (∀ other, other ≠ name → (other ∈ roster.names ↔ other ∈ names)) ∧
      Replica.create name roster options = .ok r ∧ r.bootstrap = (t, .ok ()) ∧
        c.members[name]? = some ⟨t.replica, t.committed⟩
  nobody : ∀ name, name ∉ names → c.members[name]? = none
  quiet : c.transit = []

theorem Begins.member {names : List String} {c : Cluster} (h : c.Begins names) {name : String}
    {m : Member} (hm : c.members[name]? = some m) :
    m.replica.Belongs names name ∧ m.replica.Fresh ∧ m.stream = [] := by
  by_cases hname : name ∈ names
  · obtain ⟨roster, options, r, t, hroster, hcreate, hstart, ht⟩ := h.started name hname
    rw [hm] at ht
    cases ht
    exact Replica.belongs_and_fresh hname h.named hroster hcreate hstart
  · rw [h.nobody name hname] at hm
    cases hm

end Cluster

/-! ## Runs -/

/-- A run of a cluster of these names. -/
structure Run (names : List String) where
  state : Nat → Cluster
  begins : (state 0).Begins names
  step : ∀ k, (state k).Step (state (k + 1))

namespace Run

variable {names : List String} (run : Run names)

/-- The state of a member at a time. -/
def At (k : Nat) (name : String) (r : Replica) : Prop := (run.state k).replica? name = some r

variable {run} {i j k : Nat} {name : String} {r s : Replica}

theorem At.unique (hr : run.At k name r) (hs : run.At k name s) : r = s :=
  Option.some.inj (hr.symm.trans hs)

theorem at_of_member {m : Member} (h : (run.state k).members[name]? = some m) :
    run.At k name m.replica := by
  rw [At, Cluster.replica?, h]
  rfl

theorem At.exists_member (h : run.At k name r) :
    ∃ m, (run.state k).members[name]? = some m ∧ m.replica = r :=
  Option.map_eq_some_iff.mp h

/-- A member after a step is one from before it, as it was or with one more event handled. -/
theorem exists_member_of_succ {m' : Member} (h : (run.state (k + 1)).members[name]? = some m') :
    ∃ m, (run.state k).members[name]? = some m ∧
      (m' = m ∨ ∃ event, (run.state k).Offers name event ∧ m' = m.after event) := by
  rcases (run.step k).members_cases name with hstep | ⟨event, hoffers, hstep⟩
  · exact ⟨m', hstep ▸ h, Or.inl rfl⟩
  · rw [hstep] at h
    obtain ⟨m, hm, rfl⟩ := Option.map_eq_some_iff.mp h
    exact ⟨m, hm, Or.inr ⟨event, hoffers, rfl⟩⟩

/-- Every state after a step has come of one before it, by an event that the member was offered. -/
theorem at_of_succ (h : run.At (k + 1) name s) :
    ∃ r event, run.At k name r ∧ (run.state k).Offers name event ∧ r.Handles event s := by
  obtain ⟨m', hm', rfl⟩ := h.exists_member
  obtain ⟨m, hm, rfl | ⟨event, hoffers, rfl⟩⟩ := exists_member_of_succ hm'
  · exact ⟨_, .heartbeatTimeout, at_of_member hm, Or.inl rfl, .refl _ _⟩
  · exact ⟨_, event, at_of_member hm, hoffers, m.replica.handles_handle event⟩

theorem exists_at (hname : name ∈ names) (k : Nat) : ∃ r, run.At k name r := by
  induction k with
  | zero =>
    obtain ⟨-, -, -, t, -, -, -, hm⟩ := run.begins.started name hname
    exact ⟨t.replica, at_of_member hm⟩
  | succ k ih =>
    obtain ⟨r, hr⟩ := ih
    obtain ⟨m, hm, -⟩ := hr.exists_member
    rcases (run.step k).members_cases name with hstep | ⟨event, -, hstep⟩
    · exact ⟨m.replica, at_of_member (hstep.trans hm)⟩
    · rw [hm] at hstep
      exact ⟨_, at_of_member hstep⟩

/-- Everybody begins fresh. -/
theorem At.fresh (h : run.At 0 name r) : r.Fresh := by
  obtain ⟨m, hm, rfl⟩ := h.exists_member
  exact (run.begins.member hm).2.1

/-- Whoever takes part comes of a fresh member of the cluster. -/
theorem At.exists_first (h : run.At k name r) :
    ∃ first : Replica, first.Belongs names name ∧ first.Fresh ∧ first.Becomes r := by
  induction k generalizing r with
  | zero =>
    obtain ⟨m, hm, rfl⟩ := h.exists_member
    obtain ⟨hbelongs, hfresh, -⟩ := run.begins.member hm
    exact ⟨m.replica, hbelongs, hfresh, .refl⟩
  | succ k ih =>
    obtain ⟨before, event, hbefore, -, hhandles⟩ := at_of_succ h
    obtain ⟨first, hbelongs, hfresh, hbecomes⟩ := ih hbefore
    exact ⟨first, hbelongs, hfresh, hbecomes.handle hhandles⟩

/-- Whoever takes part belongs to the cluster for good. -/
theorem At.belongs (h : run.At k name r) : r.Belongs names name := by
  obtain ⟨first, hbelongs, -, hbecomes⟩ := h.exists_first
  exact hbelongs.of_sameMember hbecomes.sameMember

/-! ## From one time to a later one -/

/-- Later states of a member come of earlier ones. -/
theorem At.becomes (hr : run.At j name r) (hs : run.At k name s) (hjk : j ≤ k) : r.Becomes s := by
  induction k, hjk using Nat.le_induction generalizing s with
  | base =>
    obtain rfl := hr.unique hs
    exact .refl
  | succ k hjk ih =>
    obtain ⟨before, event, hbefore, -, hhandles⟩ := at_of_succ hs
    exact (ih hbefore).handle hhandles

/-- Terms never fall. -/
theorem At.term_le (hr : run.At j name r) (hs : run.At k name s) (hjk : j ≤ k) :
    r.term ≤ s.term :=
  (hr.becomes hs hjk).term_le

/-- The earlier of two states is the one of the lower term. -/
theorem At.le_of_term_lt (hr : run.At j name r) (hs : run.At k name s) (hterm : r.term < s.term) :
    j ≤ k := by
  rcases Nat.le_total j k with hjk | hkj
  · exact hjk
  · have hle := hs.term_le hr hkj
    omega

/-- In one term a member votes for one candidate only. -/
theorem At.vote_unique (hr : run.At j name r) (hs : run.At k name s) (hterm : r.term = s.term)
    {candidate other : String} (hvote : r.votedFor = some candidate)
    (hvote' : s.votedFor = some other) : candidate = other :=
  Replica.vote_unique ((Nat.le_total j k).imp (hr.becomes hs) (hs.becomes hr)) hterm hvote hvote'

end Run

end RaftReplica
