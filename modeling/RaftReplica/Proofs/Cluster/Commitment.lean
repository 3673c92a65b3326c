import RaftReplica.Proofs.Cluster.Retention
import RaftReplica.Proofs.Replica.Progress

/-!
# What a leader commits

A leader commits up to an index that a majority of its peers is known to match, provided that an entry of
its own term stands there.  What it knows of its peers is true: a reply counts only if it is from its
own term, and behind a successful one stands a member that has merged the leader's log up to the index
it names.  So what a leader commits has been held by a majority in its term, and no later leader lacks
it.

* `View` says what a leader's view of its peers is worth, and `At.view` that every leader has such a one.
* `acknowledged` is the truth of a successful reply.
* `At.secured` turns the index of a majority into a stretch that a majority has held, and
  `At.secured_of_raise` does so for every index that a leader commits.
-/

namespace RaftReplica

/-- What is shipped lies within the leader's log. -/
theorem Replica.Ships.le_length {s : Replica} {request : AppendRequest} (h : s.Ships request) :
    request.prevLogIndex + request.entries.length ≤ s.log.entries.length := by
  have hprevious := Log.le_length_of_termAt? h.agrees
  have hentries := h.entries.length_le
  rw [List.length_drop] at hentries
  omega

/-- Whoever merges what is shipped has the leader's log up to its end. -/
theorem Replica.Ships.upTo_isPrefix_merge {s : Replica} {request : AppendRequest} {log : Log}
    (h : s.Ships request) (hindexed : s.log.Indexed) (hmatch : log.Matches s.log)
    (hagrees : log.termAt? request.prevLogIndex = some request.prevLogTerm) :
    s.log.entries.take (request.prevLogIndex + request.entries.length) <+:
      (log.merge request.prevLogIndex request.entries).2.entries := by
  rcases h.merge_cases hindexed hmatch hagrees with ⟨hbegins, hmerge⟩ | ⟨-, hmerge⟩
  · rw [hmerge]
    exact hbegins
  · rw [hmerge]

/-- The beginning of a list is the beginning of every list that goes on from it. -/
theorem take_eq_take_of_isPrefix {α : Type} {l m : List α} (h : l <+: m) {n : Nat}
    (hn : n ≤ l.length) : m.take n = l.take n := by
  obtain ⟨tail, rfl⟩ := h
  rw [List.take_append_of_le_length hn]

namespace Run

variable {names : List String} {run : Run names} {j k : Nat} {name other : String}
  {r r' s : Replica}

/-! ## A leader's view of its peers -/

variable (run) in
/-- A view of all members but the leader, which have held its log up to where they are known to match
it. -/
structure View (name : String) (r : Replica) (progress : Progress) : Prop where
  known : ∀ other, progress.contains other = true ↔ other ∈ names ∧ other ≠ name
  held : ∀ other p, progress.get? other = some p → p.matched ≤ r.log.entries.length ∧
    (0 < p.matched → run.Held r.term (r.log.entries.take p.matched) other)

/-- A fresh view claims nothing. -/
theorem View.start (h : r.Belongs names name) (lastIndex : Nat) :
    run.View name s (Progress.start r.peers.names lastIndex) := by
  constructor
  · intro other
    rw [Progress.contains_start, h.peers]
  · intro other p hp
    rw [Progress.get?_start hp]
    exact ⟨Nat.zero_le _, fun hpos => absurd hpos (Nat.lt_irrefl 0)⟩

/-- A view stays true while the term lasts and the log grows. -/
theorem View.mono {progress : Progress} (h : run.View name r progress) (hterm : s.term = r.term)
    (hlog : r.log.entries <+: s.log.entries) : run.View name s progress := by
  refine ⟨h.known, ?_⟩
  intro other p hp
  obtain ⟨hle, hheld⟩ := h.held other p hp
  rw [hterm, take_eq_take_of_isPrefix hlog hle]
  exact ⟨Nat.le_trans hle hlog.length_le, hheld⟩

/-- A true success keeps a view true. -/
theorem View.succeed {progress : Progress} (h : run.View name r progress) {index : Nat}
    (hindex : index ≤ r.log.entries.length)
    (hheld : run.Held r.term (r.log.entries.take index) other) :
    run.View name r (progress.succeed other index) := by
  refine ⟨fun peer => by rw [Progress.contains_succeed, h.known], ?_⟩
  intro peer p hp
  rw [Progress.get?_succeed] at hp
  split at hp
  · rename_i heq
    subst heq
    obtain ⟨before, hbefore, rfl⟩ := Option.map_eq_some_iff.mp hp
    obtain ⟨hle, hbefore⟩ := h.held other before hbefore
    simp only [PeerProgress.succeed]
    rcases Nat.le_total before.matched index with hmax | hmax
    · rw [Nat.max_eq_right hmax]
      exact ⟨hindex, fun _ => hheld⟩
    · rw [Nat.max_eq_left hmax]
      exact ⟨hle, hbefore⟩
  · exact h.held peer p hp

/-- A failure keeps a view true. -/
theorem View.fail {progress : Progress} (h : run.View name r progress) (index : Nat) :
    run.View name r (progress.fail other index) := by
  refine ⟨fun peer => by rw [Progress.contains_fail, h.known], ?_⟩
  intro peer p hp
  have hmatched := progress.matched_get?_fail other index peer
  rw [hp, Option.map_some, eq_comm, Option.map_eq_some_iff] at hmatched
  obtain ⟨before, hbefore, hmatched⟩ := hmatched
  rw [← hmatched]
  exact h.held peer before hbefore

/-- **A successful reply is true.**  Its sender has held the leader's log up to the index that it
names, in the leader's term. -/
theorem acknowledged (h : run.At j name r) (hkj : k ≤ j) (hleads : r.role = .leader)
    {reply : AppendReply} (hoffers : (run.state k).Offers name (.appendReply reply))
    (hsuccess : reply.success = true) (hpresent : reply.term = r.term) :
    reply.index ≤ r.log.entries.length ∧
      run.Held r.term (r.log.entries.take reply.index) reply.remote := by
  obtain ⟨g, hgk, i, hig, l, before, after, request, hl, hships, hbefore, hafter, hterm, hafterterm,
    hagrees, hlog, hindex⟩ := appendReply_given hoffers hsuccess
  have hgrown : l.log.entries <+: r.log.entries :=
    hl.isPrefix_of_inOffice h (by omega) (by rw [← hships.term]; omega) (Or.inr hleads)
  have hlength := hships.le_length
  rw [← hindex] at hlength
  refine ⟨Nat.le_trans hlength hgrown.length_le, g + 1, after, hafter, by omega, ?_⟩
  rw [take_eq_take_of_isPrefix hgrown hlength, hindex, hlog]
  exact hships.upTo_isPrefix_merge hl.indexed (hbefore.matches hl) hagrees

/-- **Every leader has a true view of its peers.** -/
theorem At.view (h : run.At k name r) (hleads : r.role = .leader) :
    ∃ progress, r.progress = some progress ∧ run.View name r progress := by
  induction k generalizing r with
  | zero =>
    rw [h.fresh.role] at hleads
    cases hleads
  | succ k ih =>
    obtain ⟨before, event, hbefore, hoffers, hhandles⟩ := at_of_succ h
    have hgrown := hhandles.change.isPrefix_of_inOffice (Or.inr hleads)
    rcases hhandles.change.view_cases hleads with
      ⟨hleads', hterm, hprogress⟩ | ⟨-, -, hprogress⟩ |
        ⟨reply, view, rfl, hleads', hpresent, hterm, hlog, hview, hprogress⟩
    · obtain ⟨progress, hview, htrue⟩ := ih hbefore hleads'
      exact ⟨progress, hprogress.trans hview, htrue.mono hterm hgrown⟩
    · exact ⟨_, hprogress, View.start hbefore.belongs _⟩
    · obtain ⟨progress', hview', htrue⟩ := ih hbefore hleads'
      obtain rfl : progress' = view := Option.some.inj (hview'.symm.trans hview)
      refine ⟨_, hprogress, ?_⟩
      have htrue' := htrue.mono hterm hgrown
      split
      · rename_i hsuccess
        obtain ⟨hle, hheld⟩ :=
          acknowledged h (Nat.le_succ k) hleads hoffers hsuccess (hpresent.trans hterm.symm)
        rw [hlog] at hle
        rw [Log.lastIndex, Nat.min_eq_left hle]
        exact htrue'.succeed (hlog ▸ hle) hheld
      · exact htrue'.fail _

/-! ## Committing -/

/-- **What a leader may commit has been held by a majority.** -/
theorem At.secured (h : run.At k name r) (hleads : r.role = .leader) {index : Nat}
    (hmajority : r.majorityIndex? = some index) (hpresent : r.log.termAt? index = some r.term)
    (hpos : 0 < index) : run.Secured r.term (r.log.entries.take index) := by
  obtain ⟨progress, hprogress, hview⟩ := h.view hleads
  rw [Replica.majorityIndex?, hprogress, Option.map_some, Option.some_inj] at hmajority
  refine ⟨⟨k, name, r, h, hleads, rfl, List.take_prefix _ _⟩, ?_, ?_⟩
  · obtain ⟨n, rfl⟩ : ∃ n, index = n + 1 := ⟨index - 1, by omega⟩
    rw [Log.termAt?_succ, Option.map_eq_some_iff] at hpresent
    obtain ⟨entry, hentry, hterm⟩ := hpresent
    refine ⟨entry, List.mem_of_getElem? (i := n) ?_, hterm⟩
    rw [List.getElem?_take_of_lt (Nat.lt_succ_self n), hentry]
  · refine Progress.most_of_clusterCommitIndex run.begins.distinct h.belongs.member hview.known
      hmajority ⟨k, r, h, rfl, List.take_prefix _ _⟩ ?_
    intro peer p hp hle
    obtain ⟨i, s, hs, hterm, hbegins⟩ := (hview.held peer p hp).2 (by omega)
    exact ⟨i, s, hs, hterm, (List.take_prefix_take_left hle).trans hbegins⟩

/-- A step takes a member's state on by one event at most, and with it what the event commits. -/
theorem At.commits_of_succ (hr : run.At k name r) (hr' : run.At (k + 1) name r') :
    r' = r ∨ ∃ event t, (run.state k).Offers name event ∧ t.replica = r' ∧ r.Commits event t := by
  obtain ⟨m', hm', rfl⟩ := hr'.exists_member
  obtain ⟨m, hm, hstep⟩ := exists_member_of_succ hm'
  obtain rfl := hr.unique (at_of_member hm)
  rcases hstep with rfl | ⟨event, hoffers, rfl⟩
  · exact Or.inl rfl
  · exact Or.inr ⟨event, _, hoffers, rfl, m.replica.commits_handle event⟩

/-- Whenever a leader raises its commit index, a majority has held what it commits. -/
theorem At.secured_of_raise (hr : run.At k name r) (hr' : run.At (k + 1) name r')
    (hleads : r'.role = .leader) (hraises : r.commitIndex < r'.commitIndex) :
    run.Secured r'.term (r'.log.entries.take r'.commitIndex) ∧
      r'.commitIndex ≤ r'.log.entries.length := by
  rcases hr.commits_of_succ hr' with rfl | ⟨event, t, -, rfl, hcommits⟩
  · exact absurd hraises (Nat.lt_irrefl _)
  · obtain ⟨hmajority, hpresent⟩ := hcommits.majority_of_rises hraises hleads
    exact ⟨hr'.secured hleads hmajority hpresent (by omega), Log.le_length_of_termAt? hpresent⟩

/-- **Leader completeness.**  What a leader commits, every leader of a later term has at the same
indexes. -/
theorem leader_completeness (hr : run.At k name r) (hr' : run.At (k + 1) name r')
    (hleads : r'.role = .leader) (hraises : r.commitIndex < r'.commitIndex)
    (hs : run.At j other s) (hleads' : s.role = .leader) (hlater : r'.term < s.term) :
    ∀ i, 1 ≤ i → i ≤ r'.commitIndex →
      ∃ entry, r'.log.get? i = some entry ∧ s.log.get? i = some entry := by
  obtain ⟨hsecured, hlength⟩ := hr.secured_of_raise hr' hleads hraises
  intro i hpos hi
  exact Log.exists_get?_of_take_isPrefix (hsecured.isPrefix hs hleads' hlater) hlength hpos hi

/-- In the sample run the leader of the second term has what the leader of the first committed. -/
theorem leader_completeness_sample :
    ∃ r r' s, sample.At 7 "a" r ∧ sample.At 8 "a" r' ∧ r'.role = .leader ∧
      r.commitIndex < r'.commitIndex ∧ sample.At 14 "b" s ∧ s.role = .leader ∧ r'.term < s.term ∧
        1 ≤ r'.commitIndex ∧ ∃ entry, r'.log.get? 1 = some entry ∧ s.log.get? 1 = some entry := by
  obtain ⟨r, hr, hindex⟩ := sample.exists_at_of_any 7 "a" (fun r => r.commitIndex = 0)
    (by decide +kernel)
  obtain ⟨r', hr', hleads, hterm, hindex'⟩ := sample.exists_at_of_any 8 "a"
    (fun r => r.role = .leader ∧ r.term = 1 ∧ r.commitIndex = 1) (by decide +kernel)
  obtain ⟨s, hs, hleads', hterm'⟩ := sample.exists_at_of_any 14 "b"
    (fun r => r.role = .leader ∧ r.term = 2) (by decide +kernel)
  have hraises : r.commitIndex < r'.commitIndex := by omega
  have hlater : r'.term < s.term := by omega
  have hpos : 1 ≤ r'.commitIndex := by omega
  exact ⟨r, r', s, hr, hr', hleads, hraises, hs, hleads', hlater, hpos,
    leader_completeness hr hr' hleads hraises hs hleads' hlater 1 (Nat.le_refl 1) hpos⟩

end Run

end RaftReplica
