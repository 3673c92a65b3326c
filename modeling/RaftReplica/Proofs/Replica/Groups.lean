import Mathlib.Data.List.Nodup
import RaftReplica.Proofs.Replica.Progress

/-!
# Peers in groups

Peers that wait for the same entry share a request, so a leader sorts the records of its peers into groups
before it sends anything.  In whatever order it reads the records and then serves the groups, there is one
group for each index that is waited for, and a peer is in the one that waits for its own.

* `Waits` says that a name is in a group, and `waits_joinGroup` what joining a group changes.
* `Grouped` says that groups sort some records, `grouped_groupsOf` that those of the model do, and
  `Grouped.perm` that the order of both does not matter.
* `Grouped.mem_iff` is what being in a group comes to.
* `perm_flatMap_fibers` puts a list together again from its parts.
-/

namespace RaftReplica

/-- The parts of a list, one for each value of a function, make up the list. -/
theorem perm_flatMap_fibers {α κ : Type} [DecidableEq κ] (value : α → κ) {keys : List κ}
    (hnodup : keys.Nodup) {l : List α} (hcovers : ∀ x ∈ l, value x ∈ keys) :
    (keys.flatMap fun key => l.filter fun x => value x = key).Perm l := by
  induction keys generalizing l with
  | nil =>
    cases l with
    | nil => exact .nil
    | cons x l => exact absurd (hcovers x List.mem_cons_self) List.not_mem_nil
  | cons key keys ih =>
    obtain ⟨hkey, hnodup⟩ := List.nodup_cons.mp hnodup
    let others := l.filter fun x => !decide (value x = key)
    have hcovers' : ∀ x ∈ others, value x ∈ keys := by
      intro x hx
      obtain ⟨hx, hne⟩ := List.mem_filter.mp hx
      rcases List.mem_cons.mp (hcovers x hx) with heq | hmem
      · simp [heq] at hne
      · exact hmem
    have hparts : ∀ other ∈ keys, (others.filter fun x => value x = other) =
        l.filter fun x => value x = other := by
      intro other hother
      rw [List.filter_filter]
      refine List.filter_congr fun x _ => ?_
      have hne : other ≠ key := fun heq => hkey (heq ▸ hother)
      by_cases hx : value x = other <;> simp [hx, hne]
    calc ((key :: keys).flatMap fun key => l.filter fun x => value x = key)
        = (l.filter fun x => value x = key) ++ keys.flatMap fun other => l.filter fun x => value x = other :=
          List.flatMap_cons
      _ = (l.filter fun x => value x = key) ++
            keys.flatMap fun other => others.filter fun x => value x = other := by
          rw [List.flatMap_congr hparts]
      _ |>.Perm ((l.filter fun x => value x = key) ++ others) := (ih hnodup hcovers').append_left _
      _ |>.Perm l := List.filter_append_perm _ _

namespace Progress

variable {records : List (String × PeerProgress)} {groups : List (Nat × List String)}

/-- The name is in a group that waits for the index. -/
def Waits (groups : List (Nat × List String)) (next : Nat) (name : String) : Prop :=
  ∃ names, (next, names) ∈ groups ∧ name ∈ names

theorem waits_cons {group : Nat × List String} {next : Nat} {name : String} :
    Waits (group :: groups) next name ↔ next = group.1 ∧ name ∈ group.2 ∨ Waits groups next name := by
  unfold Waits
  constructor
  · rintro ⟨names, hgroup, hname⟩
    rcases List.mem_cons.mp hgroup with rfl | hgroup
    · exact Or.inl ⟨rfl, hname⟩
    · exact Or.inr ⟨names, hgroup, hname⟩
  · rintro (⟨rfl, hname⟩ | ⟨names, hgroup, hname⟩)
    · exact ⟨group.2, List.mem_cons_self, hname⟩
    · exact ⟨names, List.mem_cons_of_mem _ hgroup, hname⟩

/-! ## Joining a group -/

variable (next : Nat) (name : String) (groups)

/-- To join a group puts one name into it and takes nobody out of any. -/
theorem waits_joinGroup (index : Nat) (other : String) :
    Waits (joinGroup next name groups) index other ↔
      Waits groups index other ∨ index = next ∧ other = name := by
  induction groups with
  | nil =>
    unfold joinGroup
    rw [waits_cons, List.mem_singleton, or_comm]
  | cons group groups ih =>
    obtain ⟨present, names⟩ := group
    unfold joinGroup
    split
    · rename_i hsame
      subst hsame
      rw [waits_cons, waits_cons, List.mem_append, List.mem_singleton, and_or_left, or_right_comm]
    · rw [waits_cons, waits_cons, ih, or_assoc]

/-- To join a group opens it if there is none for the index. -/
theorem map_fst_joinGroup :
    (joinGroup next name groups).map (·.1) =
      if next ∈ groups.map (·.1) then groups.map (·.1) else groups.map (·.1) ++ [next] := by
  induction groups with
  | nil => rfl
  | cons group groups ih =>
    obtain ⟨present, names⟩ := group
    unfold joinGroup
    by_cases hsame : present = next
    · simp [hsame]
    · rw [if_neg hsame, List.map_cons, ih, List.map_cons]
      by_cases hthere : next ∈ groups.map (·.1)
      · rw [if_pos hthere, if_pos (List.mem_cons_of_mem _ hthere)]
      · rw [if_neg hthere, if_neg fun h => (List.mem_cons.mp h).elim (fun heq => hsame heq.symm) hthere,
          List.cons_append]

/-- Nobody opens a group without being in it. -/
theorem ne_nil_of_mem_joinGroup (hinhabited : ∀ group ∈ groups, group.2 ≠ []) :
    ∀ group ∈ joinGroup next name groups, group.2 ≠ [] := by
  induction groups with
  | nil =>
    intro group hgroup
    rw [List.mem_singleton.mp hgroup]
    exact List.cons_ne_nil _ _
  | cons first groups ih =>
    obtain ⟨present, names⟩ := first
    obtain ⟨hfirst, hrest⟩ := List.forall_mem_cons.mp hinhabited
    unfold joinGroup
    split
    · exact List.forall_mem_cons.mpr ⟨List.append_ne_nil_of_right_ne_nil _ (List.cons_ne_nil _ _), hrest⟩
    · exact List.forall_mem_cons.mpr ⟨hfirst, ih hrest⟩

variable {next name groups}

/-! ## Sorting records into groups -/

/-- The groups sort the records: there is one for each index that is waited for, and the names in it are
those whose records wait for it. -/
structure Grouped (records : List (String × PeerProgress)) (groups : List (Nat × List String)) :
    Prop where
  distinct : (groups.map (·.1)).Nodup
  inhabited : ∀ group ∈ groups, group.2 ≠ []
  waits : ∀ next name, Waits groups next name ↔ ∃ p, (name, p) ∈ records ∧ p.next = next

namespace Grouped

theorem nil : Grouped [] [] :=
  ⟨List.nodup_nil, nofun, fun _ _ => ⟨nofun, nofun⟩⟩

/-- One more record joins its group. -/
theorem join (h : Grouped records groups) (record : String × PeerProgress) :
    Grouped (records ++ [record]) (joinGroup record.2.next record.1 groups) := by
  refine ⟨?_, ne_nil_of_mem_joinGroup _ _ _ h.inhabited, ?_⟩
  · rw [map_fst_joinGroup]
    split
    · exact h.distinct
    · rename_i hnew
      exact List.nodup_append'.mpr ⟨h.distinct, List.nodup_singleton _, List.disjoint_singleton.mpr hnew⟩
  · intro next name
    rw [waits_joinGroup, h.waits]
    constructor
    · rintro (⟨p, hrecord, hnext⟩ | ⟨rfl, rfl⟩)
      · exact ⟨p, List.mem_append_left _ hrecord, hnext⟩
      · exact ⟨record.2, List.mem_append_right _ (List.mem_singleton.mpr rfl), rfl⟩
    · rintro ⟨p, hrecord, rfl⟩
      rcases List.mem_append.mp hrecord with hrecord | hrecord
      · exact Or.inl ⟨p, hrecord, rfl⟩
      · obtain rfl := List.mem_singleton.mp hrecord
        exact Or.inr ⟨rfl, rfl⟩

/-- Neither the order of the records matters nor that of the groups. -/
theorem perm (h : Grouped records groups) {records' : List (String × PeerProgress)}
    {groups' : List (Nat × List String)} (hrecords : records'.Perm records)
    (hgroups : groups'.Perm groups) : Grouped records' groups' := by
  refine ⟨(hgroups.map _).nodup_iff.mpr h.distinct,
    fun group hgroup => h.inhabited group (hgroups.mem_iff.mp hgroup), ?_⟩
  intro next name
  simp only [Waits, hgroups.mem_iff, hrecords.mem_iff]
  exact h.waits next name

/-- The names in a group are those whose records wait for its index. -/
theorem mem_iff (h : Grouped records groups) {group : Nat × List String} (hgroup : group ∈ groups)
    {name : String} : name ∈ group.2 ↔ ∃ p, (name, p) ∈ records ∧ p.next = group.1 := by
  rw [← h.waits]
  refine ⟨fun hname => ⟨group.2, hgroup, hname⟩, ?_⟩
  rintro ⟨names, hnames, hname⟩
  -- there is only one group for the index
  have hsame : (group.1, names) = group := List.inj_on_of_nodup_map h.distinct hnames hgroup rfl
  rwa [← hsame]

end Grouped

theorem grouped_groupsOf (records : List (String × PeerProgress)) :
    Grouped records (groupsOf records) := by
  induction records using List.reverseRecOn with
  | nil => exact .nil
  | append_singleton records record ih =>
    rw [groupsOf, List.foldl_append]
    exact ih.join record

theorem grouped_groups (progress : Progress) : Grouped progress.records progress.groups :=
  (grouped_groupsOf progress.records).perm (.refl _) (List.mergeSort_perm _ _)

/-- Whoever has a record is in a group that waits for its index. -/
theorem exists_group_of_get? {progress : Progress} {p : PeerProgress} (h : progress.get? name = some p) :
    ∃ names, (p.next, names) ∈ progress.groups ∧ name ∈ names :=
  (progress.grouped_groups.waits p.next name).mpr ⟨p, mem_records.mpr h, rfl⟩

/-- Every group waits for the index of some record. -/
theorem exists_of_mem_groups {progress : Progress} {group : Nat × List String}
    (h : group ∈ progress.groups) : ∃ name p, progress.get? name = some p ∧ p.next = group.1 := by
  obtain ⟨name, hname⟩ := List.exists_mem_of_ne_nil _ (progress.grouped_groups.inhabited group h)
  obtain ⟨p, hrecord, hnext⟩ := (progress.grouped_groups.mem_iff h).mp hname
  exact ⟨name, p, mem_records.mp hrecord, hnext⟩

end Progress

end RaftReplica
