import RaftReplica.Proofs.Quorum.Majority

/-!
# Quorums as sets of hosts

A quorum is formed from a list of names, in any order, with repetitions, and with the empty name among them.
How quorums compare depends on nothing but the hosts that they contain.

* `contains_form_iff` and `size_form` say who the hosts of a quorum are and how many.
* `isSubset_iff` and `intersects_iff` are the comparisons, host by host.
* `SameHosts` is said of lists that differ in order, repetitions and empty names alone, and
  `SameHosts.contains_eq` makes the quorums of such lists contain the same.
* `intersects_of_size_lt` is the counting argument: parts of a quorum that are too large to lie side by side in
  it have a host in common.
* `compare_as_sets` is all of it for two lists.
-/

namespace RaftReplica.Quorum

variable {a b q : Quorum} {ids other : Sequence} {names listed : List String} {host : String}

/-! ## Hosts -/

theorem mem_names_iff : host ∈ q.names ↔ q.contains host = true := by
  rw [mem_names, contains, Std.TreeSet.contains_iff_mem]

theorem contains_form_iff :
    (form ids names).1.contains host = true ↔ host ≠ "" ∧ host ∈ names := by
  change (hostSet names).contains host = true ↔ _
  rw [Std.TreeSet.contains_iff_mem, mem_hostSet, and_comm]

/-- Names count once, and the empty one not at all. -/
theorem size_form : (form ids names).1.size = (names.toFinset.erase "").card := by
  rw [← Finset.length_toList]
  refine NameSet.size_eq_length (Finset.nodup_toList _) fun name => ?_
  rw [Finset.mem_toList, Finset.mem_erase, List.mem_toFinset, and_comm]
  exact mem_hostSet

theorem contains_eq_false_of_isEmpty (h : q.isEmpty = true) : q.contains host = false :=
  Std.TreeSet.contains_of_isEmpty h

/-! ## Comparisons -/

theorem isSubset_iff :
    a.isSubset b = true ↔ ∀ host, a.contains host = true → b.contains host = true := by
  simp only [isSubset, List.all_eq_true, mem_names_iff]

theorem intersects_iff :
    a.intersects b = true ↔ ∃ host, a.contains host = true ∧ b.contains host = true := by
  simp only [intersects, List.any_eq_true, mem_names_iff]

theorem intersects_comm (a b : Quorum) : a.intersects b = b.intersects a := by
  rw [Bool.eq_iff_iff, intersects_iff, intersects_iff]
  simp only [and_comm]

theorem intersects_eq_false_of_isEmpty (h : a.isEmpty = true ∨ b.isEmpty = true) :
    a.intersects b = false := by
  rw [Bool.eq_false_iff, ne_eq, intersects_iff]
  rintro ⟨host, ha, hb⟩
  rcases h with hempty | hempty
  · exact Bool.false_ne_true ((contains_eq_false_of_isEmpty hempty).symm.trans ha)
  · exact Bool.false_ne_true ((contains_eq_false_of_isEmpty hempty).symm.trans hb)

/-- Two quorums are parts of each other if they contain the same hosts. -/
theorem isSubset_antisymm_iff :
    (a.isSubset b = true ∧ b.isSubset a = true) ↔ ∀ host, a.contains host = b.contains host := by
  rw [isSubset_iff, isSubset_iff]
  constructor
  · rintro ⟨hab, hba⟩ host
    exact Bool.eq_iff_iff.mpr ⟨hab host, hba host⟩
  · intro hsame
    exact ⟨fun host ha => hsame host ▸ ha, fun host hb => (hsame host).symm ▸ hb⟩

/-- Whether one quorum is a part of another hangs on what the two contain. -/
theorem isSubset_congr {a' b' : Quorum} (ha : ∀ host, a'.contains host = a.contains host)
    (hb : ∀ host, b'.contains host = b.contains host) : a'.isSubset b' = a.isSubset b := by
  rw [Bool.eq_iff_iff, isSubset_iff, isSubset_iff]
  simp only [ha, hb]

/-- The lists hold the same names but for order, repetitions and empty names. -/
def SameHosts (names listed : List String) : Prop := ∀ host, host ≠ "" → (host ∈ names ↔ host ∈ listed)

theorem SameHosts.contains_eq (h : SameHosts names listed) (host : String) :
    (form other listed).1.contains host = (form ids names).1.contains host := by
  rw [Bool.eq_iff_iff, contains_form_iff, contains_form_iff]
  exact and_congr_right fun hhost => (h host hhost).symm

/-! ## Counting -/

/-- **Parts of a quorum that make up more than all of it have a host in common.** -/
theorem intersects_of_size_lt (ha : a.isSubset q = true) (hb : b.isSubset q = true)
    (hsize : q.size < a.size + b.size) : a.intersects b = true := by
  have hpart {part : Quorum} (hpart : part.isSubset q = true) : part.names ⊆ q.names := by
    intro host hhost
    rw [mem_names_iff] at hhost ⊢
    exact isSubset_iff.mp hpart host hhost
  rw [size_eq_length, size_eq_length, size_eq_length] at hsize
  obtain ⟨host, hhost, hhost'⟩ :=
    exists_mem_of_length_lt a.nodup_names b.nodup_names (hpart ha) (hpart hb) hsize
  exact intersects_iff.mpr ⟨host, mem_names_iff.mp hhost, mem_names_iff.mp hhost'⟩

/-- **Quorums compare as the sets of their hosts.**  From whatever lists two quorums are formed, their hosts are
the names in the lists but the empty one, each of them once.  One is a part of the other if the other contains
all its hosts, and lists of the same names, in another order, with other repetitions and other empty names,
make no difference to that.  Quorums that are parts of each other contain the same.  They intersect, in either
order, if some host is in both, so never with an empty quorum, and always if both are parts of a quorum that
has fewer hosts than they have together. -/
theorem compare_as_sets (ids other : Sequence) (names listed : List String) :
    let a := (form ids names).1
    let b := (form other listed).1
    (∀ host, a.contains host = true ↔ host ≠ "" ∧ host ∈ names) ∧
    a.size = (names.toFinset.erase "").card ∧
    (a.isSubset b = true ↔ ∀ host, a.contains host = true → b.contains host = true) ∧
    (a.isSuperset b = true ↔ ∀ host, b.contains host = true → a.contains host = true) ∧
    a.isSuperset b = b.isSubset a ∧
    (∀ (ids' other' : Sequence) (names' listed' : List String),
      SameHosts names names' → SameHosts listed listed' →
        let a' := (form ids' names').1
        let b' := (form other' listed').1
        a'.isSubset b' = a.isSubset b ∧ a'.isSuperset b' = a.isSuperset b) ∧
    ((a.isSubset b = true ∧ b.isSubset a = true) ↔ ∀ host, a.contains host = b.contains host) ∧
    a.intersects b = b.intersects a ∧
    (a.intersects b = true ↔ ∃ host, a.contains host = true ∧ b.contains host = true) ∧
    (a.isEmpty = true ∨ b.isEmpty = true → a.intersects b = false) ∧
    ∀ q : Quorum, a.isSubset q = true → b.isSubset q = true → q.size < a.size + b.size →
      a.intersects b = true := by
  intro a b
  refine ⟨fun _ => contains_form_iff, size_form, isSubset_iff, isSubset_iff, rfl, ?_,
    isSubset_antisymm_iff, intersects_comm a b, intersects_iff, intersects_eq_false_of_isEmpty,
    fun q => intersects_of_size_lt⟩
  intro ids' other' names' listed' hnames hlisted
  exact ⟨isSubset_congr hnames.contains_eq hlisted.contains_eq,
    isSubset_congr hlisted.contains_eq hnames.contains_eq⟩

/-- `jade` and `kira`, and `kira` and `opal`, are parts of a quorum of three, so that they have to meet.  The
order of a list, a name that stands in it twice and an empty one are of no account. -/
theorem compare_as_sets_overlapping :
    let a := (form Sequence.new ["kira", "", "jade", "kira"]).1
    let b := (form Sequence.new ["opal", "kira"]).1
    let q := (form Sequence.new ["jade", "kira", "opal"]).1
    a.size = 2 ∧ a.contains "" = false ∧ a.isSubset b = false ∧ a.intersects b = true ∧
      (form Sequence.new ["jade", "kira", ""]).1.isSubset q = a.isSubset q := by
  intro a b q
  obtain ⟨hcontains, hsize, -, -, -, -, -, -, -, -, hmeet⟩ :=
    compare_as_sets Sequence.new Sequence.new ["kira", "", "jade", "kira"] ["opal", "kira"]
  obtain ⟨-, -, -, -, -, hsame, -⟩ :=
    compare_as_sets Sequence.new Sequence.new ["kira", "", "jade", "kira"] ["jade", "kira", "opal"]
  refine ⟨hsize.trans (by decide), ?_, by decide +kernel, ?_, ?_⟩
  · exact Bool.eq_false_iff.mpr fun hcontained => ((hcontains "").mp hcontained).1 rfl
  · exact hmeet q (by decide +kernel) (by decide +kernel) (by decide +kernel)
  · refine (hsame Sequence.new Sequence.new ["jade", "kira", ""] ["jade", "kira", "opal"] ?_ ?_).1
    · intro host hhost
      simp only [List.mem_cons, hhost, false_or, or_false, List.not_mem_nil]
      tauto
    · exact fun _ _ => Iff.rfl

end RaftReplica.Quorum
