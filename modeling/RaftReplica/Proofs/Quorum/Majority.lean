import Mathlib.Data.Finset.Card
import RaftReplica.Quorum.Election

/-!
# Majorities

Two majorities of the same names have a name in common.  All safety of a cluster rests on this: whatever
a majority has voted for or holds, some member of every later majority knows.

* `exists_mem_of_length_lt` is the counting argument.
* `Most` says that more than half of a list of names have a property, and `Most.meet` is the common name.
* `mem_hostSet` and `size_eq_length` say who the hosts of a quorum are and how many.
* `Election.Among` says among whom an election is held and what is known of those it counts.
  `Among.most` turns a passed election into a majority.
-/

namespace RaftReplica

variable {names : List String}

/-- More than half of the names have a property. -/
def Most (names : List String) (P : String → Prop) : Prop :=
  ∃ some : List String, some.Nodup ∧ some ⊆ names ∧ names.length < 2 * some.length ∧
    ∀ name ∈ some, P name

theorem Most.mono {P Q : String → Prop} (h : Most names P) (hPQ : ∀ name ∈ names, P name → Q name) :
    Most names Q := by
  obtain ⟨some, hnodup, hsub, hcount, hall⟩ := h
  exact ⟨some, hnodup, hsub, hcount, fun name hname => hPQ name (hsub hname) (hall name hname)⟩

/-- Two selections of names that are longer than all the names together have a name in common. -/
theorem exists_mem_of_length_lt {some some' : List String} (hnodup : some.Nodup) (hnodup' : some'.Nodup)
    (hsub : some ⊆ names) (hsub' : some' ⊆ names) (hlength : names.length < some.length + some'.length) :
    ∃ name ∈ some, name ∈ some' := by
  have hcard : names.toFinset.card < some.toFinset.card + some'.toFinset.card := by
    rw [List.toFinset_card_of_nodup hnodup, List.toFinset_card_of_nodup hnodup']
    have hle := List.toFinset_card_le names
    omega
  have hto : ∀ {part : List String}, part ⊆ names → part.toFinset ⊆ names.toFinset := by
    intro part hpart name hname
    rw [List.mem_toFinset] at hname ⊢
    exact hpart hname
  obtain ⟨name, hname⟩ :=
    Finset.inter_nonempty_of_card_lt_card_add_card (hto hsub) (hto hsub') hcard
  rw [Finset.mem_inter, List.mem_toFinset, List.mem_toFinset] at hname
  exact ⟨name, hname⟩

/-- **Two majorities have a name in common.** -/
theorem Most.meet {P Q : String → Prop} (hP : Most names P) (hQ : Most names Q) :
    ∃ name ∈ names, P name ∧ Q name := by
  obtain ⟨some, hnodup, hsub, hcount, hall⟩ := hP
  obtain ⟨some', hnodup', hsub', hcount', hall'⟩ := hQ
  obtain ⟨name, hname, hname'⟩ := exists_mem_of_length_lt hnodup hnodup' hsub hsub' (by omega)
  exact ⟨name, hsub hname, hall name hname, hall' name hname'⟩

/-- Those that have the property are themselves more than half of the names. -/
theorem Most.length_filter {P : String → Prop} [DecidablePred P] (h : Most names P) :
    names.length < 2 * (names.filter fun name => P name).length := by
  obtain ⟨some, hnodup, hsub, hcount, hall⟩ := h
  have hfiltered : some ⊆ names.filter fun name => P name := by
    intro name hname
    exact List.mem_filter.mpr ⟨hsub hname, decide_eq_true (hall name hname)⟩
  have hlength := (hnodup.subperm hfiltered).length_le
  omega

/-! ## The hosts of a quorum -/

/-- No name stands twice in a set of names. -/
theorem NameSet.nodup_toList (hosts : NameSet) : hosts.toList.Nodup :=
  hosts.distinct_toList.imp fun hne heq => hne (Std.LawfulEqCmp.compare_eq_iff_eq.mpr heq)

/-- A set that holds exactly the names of a list without repetitions is as large as the list. -/
theorem NameSet.size_eq_length {hosts : NameSet} (hnodup : names.Nodup)
    (hmem : ∀ name, name ∈ hosts ↔ name ∈ names) : hosts.size = names.length := by
  have hperm : hosts.toList.Perm names := by
    rw [List.perm_ext_iff_of_nodup hosts.nodup_toList hnodup]
    intro name
    rw [Std.TreeSet.mem_toList, hmem]
  rw [← Std.TreeSet.length_toList, hperm.length_eq]

theorem Quorum.size_eq_length (q : Quorum) : q.size = q.names.length :=
  Std.TreeSet.length_toList.symm

theorem Quorum.nodup_names (q : Quorum) : q.names.Nodup := q.hosts.nodup_toList

theorem Quorum.mem_names {q : Quorum} {name : String} : name ∈ q.names ↔ name ∈ q.hosts :=
  Std.TreeSet.mem_toList

theorem Quorum.mem_hostSet {name : String} : name ∈ hostSet names ↔ name ∈ names ∧ name ≠ "" := by
  rw [hostSet, Std.TreeSet.mem_ofList, List.contains_iff_mem, List.mem_filter, bne_iff_ne]

/-! ## Votes -/

/-- Calling an election takes over the hosts of the quorum, and nobody has voted. -/
theorem Quorum.election_ok {q : Quorum} {e : Election} (h : q.election = .ok e) :
    e.members = q.hosts ∧ ∀ voter, voter ∉ e.voters := by
  unfold election at h
  split at h
  · cases h
  · split at h
    · cases h
    · cases h
      exact ⟨rfl, fun voter => Std.TreeSet.not_mem_emptyc⟩

namespace Election

/-- A vote counts if it comes from a member that has not voted, and only the voters change with it. -/
theorem vote_ok {e after : Election} {member : String} {passed : Bool}
    (h : e.vote member = .ok (passed, after)) :
    passed = after.passed ∧ after.members = e.members ∧ member ∈ e.members ∧
      ∀ voter, voter ∈ after.voters ↔ voter = member ∨ voter ∈ e.voters := by
  unfold vote at h
  split at h
  · cases h
  · rename_i hmember
    split at h
    · cases h
    · cases h
      refine ⟨rfl, rfl, ?_, ?_⟩
      · simpa using hmember
      · intro voter
        rw [Std.TreeSet.mem_insert, Std.LawfulEqCmp.compare_eq_iff_eq]
        exact or_congr_left eq_comm

/-- An election among these names, in which everybody who is counted is one of them and has a
property. -/
structure Among (names : List String) (P : String → Prop) (e : Election) : Prop where
  members : ∀ name, name ∈ e.members ↔ name ∈ names
  voters : ∀ voter ∈ e.voters, voter ∈ names ∧ P voter

variable {P Q : String → Prop} {e after : Election} {member : String} {passed : Bool}

theorem Among.mono (h : e.Among names P) (hPQ : ∀ name, P name → Q name) : e.Among names Q :=
  ⟨h.members, fun voter hvoter => (h.voters voter hvoter).imp_right (hPQ voter)⟩

/-- One more vote is counted. -/
theorem Among.vote (h : e.Among names P) (hvote : e.vote member = .ok (passed, after))
    (hmember : P member) : after.Among names P := by
  obtain ⟨-, hmembers, hmem, hvoters⟩ := vote_ok hvote
  refine ⟨hmembers ▸ h.members, ?_⟩
  intro voter hvoter
  rcases (hvoters voter).mp hvoter with rfl | hbefore
  · exact ⟨(h.members voter).mp hmem, hmember⟩
  · exact h.voters voter hbefore

/-- A passed election shows a majority. -/
theorem Among.most (h : e.Among names P) (hnodup : names.Nodup) (hpassed : e.passed = true) :
    Most names P := by
  refine ⟨e.voters.toList, e.voters.nodup_toList, ?_, ?_, ?_⟩
  · intro voter hvoter
    exact (h.voters voter (Std.TreeSet.mem_toList.mp hvoter)).1
  · rw [Std.TreeSet.length_toList]
    simp only [Election.passed, majority, ballots, decide_eq_true_eq,
      NameSet.size_eq_length hnodup h.members] at hpassed
    omega
  · intro voter hvoter
    exact (h.voters voter (Std.TreeSet.mem_toList.mp hvoter)).2

end Election

end RaftReplica
