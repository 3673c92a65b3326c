import RaftReplica.Progress
import RaftReplica.Proofs.Quorum.Majority

/-!
# What a leader's view of its peers is worth

A leader counts the peers that are known to match its log.  The index that it takes from the sorted
matches is one that a majority of the whole cluster reaches, with the leader itself among them.

* `contains_start`, `contains_succeed` and `contains_fail` say whose records there are, `get?_start`,
  `get?_succeed` and `get?_fail` what they say.
* `le_clusterCommitIndex_iff` counts the matches that reach as far as the commit index does.
* `most_of_clusterCommitIndex` is the majority behind a commit index.
-/

namespace RaftReplica

namespace Progress

/-! ## Records -/

/-- All values of a map that is filled with one value are that value. -/
private theorem getElem?_foldl_insert {value : PeerProgress} (names : List String)
    (map : Std.TreeMap String PeerProgress compare)
    (hmap : ∀ (name : String) (p : PeerProgress), map[name]? = some p → p = value)
    {name : String} {p : PeerProgress}
    (h : ((names.map fun name => (name, value)).foldl (fun map (entry : String × PeerProgress) =>
      map.insert entry.1 entry.2) map)[name]? = some p) : p = value := by
  induction names generalizing map with
  | nil => exact hmap name p h
  | cons first rest ih =>
    rw [List.map_cons, List.foldl_cons] at h
    refine ih _ ?_ h
    intro name' p' h'
    rw [Std.TreeMap.getElem?_insert] at h'
    split at h'
    · exact (Option.some.inj h').symm
    · exact hmap name' p' h'

/-- A fresh view has the records of the names that it is made for. -/
theorem contains_start {names : List String} {lastIndex : Nat} {name : String} :
    (start names lastIndex).contains name = true ↔ name ∈ names := by
  rw [start, contains, Std.TreeMap.contains_ofList, List.contains_iff_mem, List.map_map]
  simp [Function.comp_def]

/-- In a fresh view nothing is known of any peer. -/
theorem get?_start {names : List String} {lastIndex : Nat} {name : String} {p : PeerProgress}
    (h : (start names lastIndex).get? name = some p) : p = PeerProgress.initial lastIndex := by
  rw [start, get?, Std.TreeMap.ofList_equiv_foldl.getElem?_eq] at h
  refine getElem?_foldl_insert names ∅ ?_ h
  intro name' p' h'
  simp at h'

variable (progress : Progress) (peer : String) (index : Nat)

@[simp] theorem contains_succeed (name : String) :
    (progress.succeed peer index).contains name = progress.contains name :=
  Std.TreeMap.contains_modify

@[simp] theorem contains_fail (name : String) :
    (progress.fail peer index).contains name = progress.contains name :=
  Std.TreeMap.contains_modify

/-- To change the record of one peer leaves those of the others alone. -/
theorem get?_modify (change : PeerProgress → PeerProgress) (name : String) :
    (⟨progress.peers.modify peer change⟩ : Progress).get? name =
      if peer = name then (progress.get? name).map change else progress.get? name := by
  rw [get?, Std.TreeMap.getElem?_modify]
  by_cases h : peer = name
  · subst h
    simp [get?]
  · rw [if_neg (mt Std.LawfulEqCmp.eq_of_compare h), if_neg h]
    rfl

/-- A success raises the match of the peer it comes from. -/
theorem get?_succeed (name : String) :
    (progress.succeed peer index).get? name =
      if peer = name then (progress.get? name).map (·.succeed index) else progress.get? name :=
  progress.get?_modify peer _ name

theorem get?_fail (name : String) :
    (progress.fail peer index).get? name =
      if peer = name then (progress.get? name).map (·.fail index) else progress.get? name :=
  progress.get?_modify peer _ name

/-- A failure changes no match. -/
theorem matched_get?_fail (name : String) :
    ((progress.fail peer index).get? name).map (·.matched) =
      (progress.get? name).map (·.matched) := by
  rw [get?_fail]
  split
  · rw [Option.map_map]
    rfl
  · rfl

/-! ## The commit index -/

/-- With two peers it is the one further ahead that counts. -/
theorem clusterCommitIndex_two (a b : Nat) : clusterCommitIndex [a, b] = some (max a b) := by
  by_cases hle : a ≤ b
  · simp [clusterCommitIndex, List.mergeSort, List.MergeSort.Internal.splitInTwo, hle]
  · simp [clusterCommitIndex, List.mergeSort, List.MergeSort.Internal.splitInTwo, hle]
    omega

/-- In a sorted list an element reaches a bound if and only if as many elements do as stand there and behind
it. -/
theorem le_getElem?_iff {sorted : List Nat} (hsorted : sorted.Pairwise fun a b => a ≤ b) {i x : Nat}
    (hx : sorted[i]? = some x) (bound : Nat) :
    bound ≤ x ↔ sorted.length - i ≤ sorted.countP fun a => bound ≤ a := by
  induction sorted generalizing i with
  | nil => cases hx
  | cons first rest ih =>
    obtain ⟨hfirst, hrest⟩ := List.pairwise_cons.mp hsorted
    by_cases hreaches : bound ≤ first
    · -- then all of them reach it
      have hall : (first :: rest).countP (fun a => bound ≤ a) = (first :: rest).length := by
        rw [List.countP_eq_length]
        intro a ha
        rcases List.mem_cons.mp ha with rfl | ha
        · exact decide_eq_true hreaches
        · exact decide_eq_true (Nat.le_trans hreaches (hfirst a ha))
      have hx' : bound ≤ x := by
        rcases List.mem_cons.mp (List.mem_of_getElem? hx) with rfl | hmem
        · exact hreaches
        · exact Nat.le_trans hreaches (hfirst x hmem)
      rw [hall]
      exact ⟨fun _ => Nat.sub_le _ _, fun _ => hx'⟩
    · have hcount : (first :: rest).countP (fun a => bound ≤ a) = rest.countP fun a => bound ≤ a := by
        simp [hreaches]
      rw [hcount, List.length_cons]
      cases i with
      | zero =>
        obtain rfl : first = x := Option.some.inj hx
        have hle := rest.countP_le_length (p := fun a => decide (bound ≤ a))
        exact ⟨fun h => absurd h hreaches, fun h => by omega⟩
      | succ i =>
        rw [Nat.succ_sub_succ]
        exact ih hrest hx

/-- The commit index reaches a bound if and only if half of the matches do, rounded up. -/
theorem le_clusterCommitIndex_iff {matched : List Nat} {index : Nat}
    (h : clusterCommitIndex matched = some index) (bound : Nat) :
    bound ≤ index ↔ matched.length - matched.length / 2 ≤ matched.countP fun m => bound ≤ m := by
  have hperm := List.mergeSort_perm matched fun a b => decide (a ≤ b)
  have hsorted : (matched.mergeSort fun a b => a ≤ b).Pairwise fun a b => decide (a ≤ b) = true := by
    apply List.pairwise_mergeSort
    · intro a b c hab hbc
      simp only [decide_eq_true_eq] at *
      omega
    · intro a b
      simp only [Bool.or_eq_true, decide_eq_true_eq]
      omega
  rw [le_getElem?_iff (hsorted.imp fun hle => of_decide_eq_true hle) h, hperm.length_eq,
    hperm.countP_eq]

theorem mem_records {progress : Progress} {name : String} {p : PeerProgress} :
    (name, p) ∈ progress.records ↔ progress.get? name = some p :=
  Std.TreeMap.mem_toList_iff_getElem?_eq_some

/-- No peer has two records. -/
theorem nodup_names_records (progress : Progress) : (progress.records.map (·.1)).Nodup := by
  rw [List.Nodup, List.pairwise_map]
  exact progress.peers.distinct_keys_toList.imp fun hne heq =>
    hne (Std.LawfulEqCmp.compare_eq_iff_eq.mpr heq)

theorem mem_names_records {progress : Progress} {name : String} :
    name ∈ progress.records.map (·.1) ↔ progress.contains name = true := by
  rw [records, Std.TreeMap.map_fst_toList_eq_keys, Std.TreeMap.mem_keys, contains,
    Std.TreeMap.contains_iff_mem]

/-- **A majority reaches the commit index.**  The leader's view is of all the names but its own; whoever
is known to reach the index that the view yields, and the leader itself, are more than half of all. -/
theorem most_of_clusterCommitIndex {names : List String} {leader : String} {progress : Progress}
    {lastIndex index : Nat} {P : String → Prop} (hnodup : names.Nodup) (hleader : leader ∈ names)
    (hknown : ∀ name, progress.contains name = true ↔ name ∈ names ∧ name ≠ leader)
    (hindex : (clusterCommitIndex progress.matched).getD lastIndex = index) (hself : P leader)
    (hreach : ∀ name p, progress.get? name = some p → index ≤ p.matched → P name) :
    Most names P := by
  let reached := progress.records.filter fun record => index ≤ record.2.matched
  have hsub : reached.Sublist progress.records := List.filter_sublist
  have hkeys : ∀ name ∈ reached.map (·.1), name ∈ names ∧ name ≠ leader := by
    intro name hname
    exact (hknown name).mp (mem_names_records.mp ((hsub.map (·.1)).subset hname))
  have hall : (leader :: progress.records.map (·.1)).Perm names := by
    rw [List.perm_ext_iff_of_nodup _ hnodup]
    · intro name
      rw [List.mem_cons, mem_names_records, hknown]
      constructor
      · rintro (rfl | h)
        · exact hleader
        · exact h.1
      · intro h
        by_cases heq : name = leader
        · exact Or.inl heq
        · exact Or.inr ⟨h, heq⟩
    · refine List.nodup_cons.mpr ⟨?_, progress.nodup_names_records⟩
      intro h
      exact ((hknown leader).mp (mem_names_records.mp h)).2 rfl
  have hlength : progress.records.length + 1 = names.length := by
    rw [← hall.length_eq, List.length_cons, List.length_map]
  have hcount : progress.records.length - progress.records.length / 2 ≤ reached.length := by
    cases hmiddle : clusterCommitIndex progress.matched with
    | none =>
      -- without peers there is nobody to count
      rw [clusterCommitIndex, List.getElem?_eq_none_iff, List.length_mergeSort, matched,
        List.length_map] at hmiddle
      omega
    | some middle =>
      rw [hmiddle, Option.getD_some] at hindex
      subst hindex
      have hle := (le_clusterCommitIndex_iff hmiddle middle).mp (Nat.le_refl middle)
      rw [matched, List.length_map, List.countP_map, List.countP_eq_length_filter] at hle
      exact hle
  refine ⟨leader :: reached.map (·.1), ?_, ?_, ?_, ?_⟩
  · refine List.nodup_cons.mpr ⟨?_, progress.nodup_names_records.sublist (hsub.map _)⟩
    intro h
    exact (hkeys leader h).2 rfl
  · intro name hname
    rcases List.mem_cons.mp hname with rfl | h
    · exact hleader
    · exact (hkeys name h).1
  · rw [List.length_cons, List.length_map]
    omega
  · intro name hname
    rcases List.mem_cons.mp hname with rfl | h
    · exact hself
    · obtain ⟨⟨_, p⟩, hrecord, rfl⟩ := List.mem_map.mp h
      obtain ⟨hrecord, hle⟩ := List.mem_filter.mp hrecord
      exact hreach _ p (mem_records.mp hrecord) (of_decide_eq_true hle)

end Progress

end RaftReplica
