import RaftReplica.Proofs.Cluster.Election

/-!
# Where the entries of a log come from

Only leaders write entries, each of them in its own term and behind its whole log; everybody else has its
entries from a leader, and with each of them all that stood before it.  Since there is one leader a term
and it only adds to its log, an entry's index and term determine the entry and everything before it.

* `isPrefix_of_inOffice` and `isPrefix_or_isPrefix`: a leader only adds to its log in its term, so that any
  two logs of leaders of one term are prefixes of one another.
* `Rooted` says that every entry, with all before it, stood in a leader's log of its term.
* `Ships.merge_cases` says what comes of merging what a leader has shipped.
* `At.rooted`, `At.matches` and `At.ordered` hold of every log of a run, and `At.log_of_succ` says what a
  step makes of it.
-/

namespace RaftReplica

/-- Two beginnings of one list that are of one length are the same. -/
theorem eq_of_isPrefix_of_length {α : Type} {l m whole : List α} (hl : l <+: whole)
    (hm : m <+: whole) (hlength : l.length = m.length) : l = m :=
  (List.prefix_of_prefix_length_le hl hm (Nat.le_of_eq hlength)).eq_of_length hlength

/-- **What comes of merging what a leader has shipped.**  A log that agrees on the entry before either has
everything up to the end of what is shipped and stays as it is, or it becomes the leader's log up to
there. -/
theorem Replica.Ships.merge_cases {s : Replica} {request : AppendRequest} {log : Log}
    (h : s.Ships request) (hindexed : s.log.Indexed) (hmatch : log.Matches s.log)
    (hagrees : log.termAt? request.prevLogIndex = some request.prevLogTerm) :
    let upTo := s.log.entries.take (request.prevLogIndex + request.entries.length)
    upTo <+: log.entries ∧ (log.merge request.prevLogIndex request.entries).2 = log ∨
      ¬ upTo <+: log.entries ∧
        (log.merge request.prevLogIndex request.entries).2.entries = upTo :=
  Log.entries_merge hindexed hmatch (Log.le_length_of_termAt? hagrees)
    (hmatch.take_eq_of_termAt? hagrees h.agrees) h.entries

namespace Run

variable {names : List String} {run : Run names} {j k : Nat} {name other : String}
  {r s : Replica}

/-! ## The logs of leaders -/

/-- From one time to a later one in the same term, whoever is in office then has only added to its
log. -/
theorem At.isPrefix_of_inOffice (hr : run.At j name r) (hs : run.At k name s) (hjk : j ≤ k)
    (hterm : s.term = r.term) (hoffice : s.InOffice) : r.log.entries <+: s.log.entries :=
  (hr.becomes hs hjk).isPrefix_of_inOffice hterm hoffice

/-- Of two logs of leaders of one term, one is the beginning of the other. -/
theorem isPrefix_or_isPrefix (hr : run.At j name r) (hs : run.At k other s)
    (hleads : r.role = .leader) (hleads' : s.role = .leader) (hterm : r.term = s.term) :
    r.log.entries <+: s.log.entries ∨ s.log.entries <+: r.log.entries := by
  have hmost := hr.elected hleads
  rw [hterm] at hmost
  obtain rfl := most_voted_unique hmost (hs.elected hleads')
  rcases Nat.le_total j k with hjk | hkj
  · exact Or.inl (hr.isPrefix_of_inOffice hs hjk hterm.symm (Or.inr hleads'))
  · exact Or.inr (hs.isPrefix_of_inOffice hr hkj hterm (Or.inr hleads))

/-! ## Logs with a root -/

variable (run) in
/-- Every entry of the log stood, behind all that stands before it, in the log of a leader of its term
at time `k` or earlier. -/
def Rooted (k : Nat) (log : Log) : Prop :=
  ∀ (n : Nat) (entry : LogEntry), log.entries[n]? = some entry →
    ∃ j ≤ k, ∃ leader s, run.At j leader s ∧ s.role = .leader ∧ s.term = entry.term ∧
      log.entries.take (n + 1) <+: s.log.entries

theorem Rooted.mono {log : Log} (h : run.Rooted j log) (hjk : j ≤ k) : run.Rooted k log := by
  intro n entry hentry
  obtain ⟨i, hij, hi⟩ := h n entry hentry
  exact ⟨i, by omega, hi⟩

/-- The beginning of a log has its roots where the log has them. -/
theorem Rooted.of_isPrefix {log log' : Log} (h : run.Rooted k log)
    (hbegins : log'.entries <+: log.entries) : run.Rooted k log' := by
  intro n entry hentry
  obtain ⟨j, hjk, leader, s, hs, hleads, hterm, htake⟩ :=
    h n entry (Log.getElem?_of_isPrefix hbegins hentry)
  exact ⟨j, hjk, leader, s, hs, hleads, hterm, (hbegins.take (n + 1)).trans htake⟩

/-- Logs with roots match. -/
theorem Rooted.matches {log log' : Log} (h : run.Rooted j log) (h' : run.Rooted k log') :
    log.Matches log' := by
  intro n entry entry' hentry hentry' hterm
  obtain ⟨i, -, leader, s, hs, hleads, hsterm, htake⟩ := h n entry hentry
  obtain ⟨i', -, leader', s', hs', hleads', hsterm', htake'⟩ := h' n entry' hentry'
  have hlength : (log.entries.take (n + 1)).length = (log'.entries.take (n + 1)).length := by
    have hn := (List.getElem?_eq_some_iff.mp hentry).1
    have hn' := (List.getElem?_eq_some_iff.mp hentry').1
    simp only [List.length_take]
    omega
  rcases isPrefix_or_isPrefix hs hs' hleads hleads' (by omega) with hle | hle
  · exact eq_of_isPrefix_of_length (htake.trans hle) htake' hlength
  · exact eq_of_isPrefix_of_length htake (htake'.trans hle) hlength

/-- What a leader appends in its term has its root in the leader's own log. -/
theorem Rooted.appendAll {log : Log} {term : Nat} {batch : List Bytes} (h : run.Rooted k log)
    (hs : run.At k name s) (hleads : s.role = .leader) (hterm : s.term = term)
    (hlog : s.log = log.appendAll term batch) : run.Rooted k (log.appendAll term batch) := by
  intro n entry hentry
  rcases Nat.lt_or_ge n log.entries.length with hn | hn
  · have hold : log.entries[n]? = some entry := by
      rwa [Log.appendAll, List.getElem?_append_left hn] at hentry
    obtain ⟨j, hjk, leader, s', hs', hleads', hterm', htake⟩ := h n entry hold
    refine ⟨j, hjk, leader, s', hs', hleads', hterm', ?_⟩
    rwa [Log.appendAll, List.take_append_of_le_length hn]
  · refine ⟨k, Nat.le_refl k, name, s, hs, hleads, ?_, ?_⟩
    · rw [hterm, Log.term_eq_of_getElem?_appendAll hn hentry]
    · rw [hlog]
      exact List.take_prefix _ _

/-! ## All logs of a run -/

/-- Every entry carries the index at which it stands. -/
theorem At.indexed (h : run.At k name r) : r.log.Indexed := by
  obtain ⟨first, -, hfresh, hbecomes⟩ := h.exists_first
  apply hbecomes.indexed
  rw [hfresh.log]
  exact Log.indexed_empty

/-- **Every log of a run is rooted in the logs of leaders.** -/
theorem At.rooted (h : run.At k name r) : run.Rooted k r.log := by
  induction k using Nat.strong_induction_on generalizing name r with
  | _ k ih =>
    cases k with
    | zero =>
      intro n entry hentry
      rw [h.fresh.log] at hentry
      cases hentry
    | succ k =>
      obtain ⟨before, event, hbefore, hoffers, hhandles⟩ := at_of_succ h
      have hrooted : run.Rooted k before.log := ih k (by omega) hbefore
      rcases hhandles.change.log_cases with hlog | ⟨-, hleads, hterm, batch, hlog⟩ |
        ⟨request, ticket, rfl, -, -, hagrees, hlog⟩
      · rw [hlog]
        exact hrooted.mono (Nat.le_succ k)
      · rw [hlog]
        exact (hrooted.mono (Nat.le_succ k)).appendAll h hleads hterm hlog
      · obtain ⟨j, hjk, leader, s, hs, hships, -⟩ := appendRequest_shipped hoffers
        have hsource : run.Rooted j s.log := ih j (by omega) hs
        rw [hlog]
        rcases hships.merge_cases hs.indexed (hrooted.matches hsource) hagrees with
          ⟨-, hmerge⟩ | ⟨-, hmerge⟩
        · rw [hmerge]
          exact hrooted.mono (Nat.le_succ k)
        · refine (hsource.mono (by omega)).of_isPrefix ?_
          rw [hmerge]
          exact List.take_prefix _ _

/-- Any two logs of a run match. -/
theorem At.matches (hr : run.At j name r) (hs : run.At k other s) : r.log.Matches s.log :=
  hr.rooted.matches hs.rooted

/-- **Where a log comes from in a step**: it is as it was, or its leader has appended to it, or it has
become the beginning of a log of a leader of the term, which it did not begin with before. -/
theorem At.log_of_succ (h : run.At (k + 1) name s) :
    ∃ r, run.At k name r ∧ r.term ≤ s.term ∧
      (s.log = r.log ∨ (∃ batch, s.log = r.log.appendAll s.term batch) ∨
        ∃ i ≤ k, ∃ leader l n, run.At i leader l ∧ l.role = .leader ∧ l.term = s.term ∧
          s.log.entries = l.log.entries.take n ∧
          ¬ l.log.entries.take n <+: r.log.entries) := by
  obtain ⟨r, event, hr, hoffers, hhandles⟩ := at_of_succ h
  refine ⟨r, hr, hhandles.change.term_le, ?_⟩
  rcases hhandles.change.log_cases with hlog | ⟨-, -, hterm, batch, hlog⟩ |
    ⟨request, ticket, rfl, -, hterm, hagrees, hlog⟩
  · exact Or.inl hlog
  · exact Or.inr (Or.inl ⟨batch, hterm ▸ hlog⟩)
  · obtain ⟨i, hik, leader, l, hl, hships, -⟩ := appendRequest_shipped hoffers
    rcases hships.merge_cases hl.indexed (hr.matches hl) hagrees with ⟨-, hmerge⟩ | ⟨hnew, hmerge⟩
    · exact Or.inl (hlog.trans hmerge)
    · refine Or.inr (Or.inr ⟨i, hik, leader, l, _, hl, hships.leads, ?_, ?_, hnew⟩)
      · rw [hterm, hships.term]
      · rw [hlog, hmerge]

/-- **Along every log of a run the terms never fall, and none exceeds the term of the replica.** -/
theorem At.ordered (h : run.At k name r) : r.log.Ordered r.term := by
  induction k using Nat.strong_induction_on generalizing name r with
  | _ k ih =>
    cases k with
    | zero =>
      rw [h.fresh.log]
      exact Log.ordered_empty _
    | succ k =>
      obtain ⟨before, hbefore, hle, hlog | ⟨batch, hlog⟩ |
        ⟨i, hik, leader, l, n, hl, -, hterm, hlog, -⟩⟩ := h.log_of_succ
      · rw [hlog]
        exact (ih k (by omega) hbefore).mono hle
      · rw [hlog]
        exact ((ih k (by omega) hbefore).mono hle).appendAll batch
      · rw [← hterm]
        refine (ih i (by omega) hl).of_isPrefix ?_
        rw [hlog]
        exact List.take_prefix _ _

/-- **Log matching.**  If two logs of a run, at whatever times, hold entries of one term at one index,
they hold the same entries up to that index; and along each log every entry carries its index, the terms
never fall, and none exceeds the term of the replica. -/
theorem log_matching (hr : run.At j name r) (hs : run.At k other s) :
    (∀ index entry entry', r.log.get? index = some entry → s.log.get? index = some entry' →
        entry.term = entry'.term → ∀ i, 1 ≤ i → i ≤ index →
          ∃ same, r.log.get? i = some same ∧ s.log.get? i = some same) ∧
      (∀ i i' entry later, i ≤ i' → r.log.get? i = some entry → r.log.get? i' = some later →
        entry.term ≤ later.term) ∧
      ∀ i entry, r.log.get? i = some entry → entry.index = i ∧ entry.term ≤ r.term := by
  refine ⟨?_, ?_, ?_⟩
  · intro index entry entry' hentry hentry' hterm i hi hle
    obtain ⟨n, rfl, hn⟩ := Log.exists_of_get? hentry
    have htake := hr.matches hs n entry entry' hn hentry' hterm
    refine Log.exists_get?_of_take_isPrefix ?_ (List.getElem?_eq_some_iff.mp hn).1 hi hle
    rw [htake]
    exact List.take_prefix _ _
  · intro i i' entry later hle hentry hlater
    obtain ⟨n, rfl, hn⟩ := Log.exists_of_get? hentry
    obtain ⟨n', rfl, hn'⟩ := Log.exists_of_get? hlater
    exact hr.ordered.term_le hn hn' (by omega)
  · intro i entry hentry
    obtain ⟨n, rfl, hn⟩ := Log.exists_of_get? hentry
    exact ⟨hr.indexed n entry hn, hr.ordered.bounded entry (List.mem_of_getElem? hn)⟩

/-- In the sample run both replicas hold an entry of the first term. -/
theorem log_matching_sample :
    ∃ r s entry entry', sample.At 14 "a" r ∧ sample.At 14 "b" s ∧ r.log.get? 1 = some entry ∧
      s.log.get? 1 = some entry' ∧ entry.term = entry'.term ∧
      ∃ same, r.log.get? 1 = some same ∧ s.log.get? 1 = some same := by
  obtain ⟨r, hr, hlog⟩ := sample.exists_at_of_any 14 "a"
    (fun r => r.log.get? 1 = some ⟨1, 1, [1]⟩) (by decide +kernel)
  obtain ⟨s, hs, hlog'⟩ := sample.exists_at_of_any 14 "b"
    (fun r => r.log.get? 1 = some ⟨1, 1, [1]⟩) (by decide +kernel)
  exact ⟨r, s, _, _, hr, hs, hlog, hlog', rfl,
    (log_matching hr hs).1 1 _ _ hlog hlog' rfl 1 (by omega) (by omega)⟩

end Run

end RaftReplica
