import RaftReplica.Proofs.Cluster.LogMatching

/-!
# What a majority holds is not lost

Once a majority has held a stretch of a leader's log that ends in an entry of the leader's own term, that
stretch is in the log of every leader of a later term.  The majority that elects such a leader has a
member in common with the one that held the stretch.  By the time of its vote that member has not lost
it, for it has merged nothing but what leaders had shipped that have it too, and it votes only for a log
that is at least as up to date as its own.

* `At.retains`: a member keeps a stretch of its log for as long as all leaders go along with it, as
  those of one term do with each other's logs (`At.along`).
* `At.vote_granted` goes back from a vote to the time when it was given.
* `At.isPrefix_of_coveredBy`: a stretch of an earlier term is in every log that covers one with it,
  if it is in the logs of the leaders in between.
* `Secured` is held by a majority in the sense above, and `Secured.isPrefix` is the result.
-/

namespace RaftReplica

/-- If a list goes along with the beginning of an old one, then a stretch of it that the old one does not
begin with has that beginning as well. -/
theorem isPrefix_take_of_not_isPrefix {α : Type} {stretch old source : List α} {n : Nat}
    (hold : stretch <+: old) (halong : stretch <+: source ∨ source <+: stretch)
    (hnew : ¬ source.take n <+: old) : stretch <+: source.take n := by
  have htake := List.take_prefix n source
  rcases halong with hle | hle
  · rcases List.prefix_or_prefix_of_prefix hle htake with h | h
    · exact h
    · exact absurd (h.trans hold) hnew
  · exact absurd ((htake.trans hle).trans hold) hnew

namespace Run

variable {names : List String} {run : Run names} {j k : Nat} {name : String} {r s : Replica}
  {term : Nat} {stretch : List LogEntry}

/-! ## Keeping a stretch -/

/-- All leaders of a term go along with a stretch of the log of one of them. -/
theorem At.along {leader : String} {l : Replica} (hl : run.At j leader l)
    (hleads : l.role = .leader) (hstretch : stretch <+: l.log.entries) (hs : run.At k name s)
    (hleads' : s.role = .leader) (hterm : l.term = s.term) :
    stretch <+: s.log.entries ∨ s.log.entries <+: stretch := by
  rcases isPrefix_or_isPrefix hl hs hleads hleads' hterm with hle | hle
  · exact Or.inl (hstretch.trans hle)
  · exact List.prefix_or_prefix_of_prefix hstretch hle

/-- **A stretch is kept** from a term on, up to a later one, if all leaders in between go along with
it. -/
theorem At.retains (hr : run.At j name r) (hs : run.At k name s) (hjk : j ≤ k)
    (hterm : term ≤ r.term) (hstretch : stretch <+: r.log.entries)
    (halong : ∀ i < k, ∀ leader l, run.At i leader l → l.role = .leader → term ≤ l.term →
      l.term ≤ s.term → stretch <+: l.log.entries ∨ l.log.entries <+: stretch) :
    stretch <+: s.log.entries := by
  induction k, hjk using Nat.le_induction generalizing s with
  | base => rwa [← hr.unique hs]
  | succ k hjk ih =>
    obtain ⟨before, hbefore, hle, hlog | ⟨batch, hlog⟩ |
      ⟨i, hik, leader, l, n, hl, hleads, hlterm, hlog, hnew⟩⟩ := hs.log_of_succ
    all_goals
      have hkept : stretch <+: before.log.entries :=
        ih hbefore fun i hi leader l hl hleads hfirst hlast =>
          halong i (by omega) leader l hl hleads hfirst (Nat.le_trans hlast hle)
    · rwa [hlog]
    · rw [hlog]
      exact hkept.trans (Log.isPrefix_appendAll _ _ _)
    · have hlater := hr.term_le hbefore hjk
      rw [hlog]
      exact isPrefix_take_of_not_isPrefix hkept
        (halong i (by omega) leader l hl hleads (by omega) (Nat.le_of_eq hlterm)) hnew

/-! ## Votes -/

/-- A vote for another was given at an earlier time, to a candidate of the term whose log covered the
log that the voter then had. -/
theorem At.vote_granted (h : run.At k name s) {candidate : String}
    (hvote : s.votedFor = some candidate) :
    candidate = name ∨ ∃ j < k, ∃ r r', run.At j name r ∧ run.At (j + 1) name r' ∧
      r'.term = s.term ∧ ∃ i ≤ j, ∃ c, run.At i candidate c ∧ c.role = .candidate ∧
        c.term = s.term ∧ r.log.coveredBy c.log.lastTerm c.log.lastIndex = true := by
  induction k generalizing s with
  | zero =>
    rw [h.fresh.votedFor] at hvote
    cases hvote
  | succ k ih =>
    obtain ⟨before, event, hbefore, hoffers, hhandles⟩ := at_of_succ h
    rcases hhandles.change.vote_cases hvote with ⟨hterm, hvote'⟩ | hown |
      ⟨request, ticket, rfl, hcandidate, hterm, hcovered⟩
    · rw [hterm]
      refine (ih hbefore hvote').imp_right ?_
      rintro ⟨j, hjk, hgiven⟩
      exact ⟨j, by omega, hgiven⟩
    · exact Or.inl (hown.trans hbefore.belongs.named)
    · right
      obtain ⟨i, hik, source, c, hc, hstands, rfl, -⟩ := voteRequest_issued hoffers
      have hsource : source = candidate := hc.belongs.named.symm.trans hcandidate
      subst hsource
      exact ⟨k, by omega, before, s, hbefore, h, rfl, i, hik, c, hc, hstands, hterm, hcovered⟩

/-! ## Logs that cover others -/

/-- A log that is not empty was a leader's log up to its end, in the term of its last entry. -/
theorem At.exists_leader_of_last (h : run.At k name r) (hne : r.log.entries ≠ []) :
    ∃ j ≤ k, ∃ leader l, run.At j leader l ∧ l.role = .leader ∧ l.term = r.log.lastTerm ∧
      r.log.entries <+: l.log.entries := by
  obtain ⟨n, entry, hlength, hentry, hterm⟩ := Log.exists_last hne
  obtain ⟨j, hjk, leader, l, hl, hleads, hlterm, htake⟩ := h.rooted n entry hentry
  rw [List.take_of_length_le (Nat.le_of_eq hlength)] at htake
  exact ⟨j, hjk, leader, l, hl, hleads, hlterm.trans hterm.symm, htake⟩

/-- If a log with a stretch of a term is covered by another log, that one has the stretch as well, given
that all earlier leaders of later terms have it. -/
theorem At.isPrefix_of_coveredBy (hr : run.At j name r) {other : String} (hs : run.At k other s)
    (hstretch : stretch <+: r.log.entries) {last : LogEntry} (hlast : last ∈ stretch)
    (hbound : ∀ entry ∈ stretch, entry.term ≤ last.term)
    (hcovered : r.log.coveredBy s.log.lastTerm s.log.lastIndex = true)
    (hleaders : ∀ i ≤ k, ∀ leader l, run.At i leader l → l.role = .leader → last.term < l.term →
      stretch <+: l.log.entries) : stretch <+: s.log.entries := by
  have hmem : last ∈ r.log.entries := hstretch.subset hlast
  have hle : last.term ≤ r.log.lastTerm := hr.ordered.term_le_lastTerm hmem
  rcases Log.coveredBy_cases hcovered with hlater | ⟨hsame, hlength⟩
  · -- the covering log comes from a leader of a later term, which has the stretch
    have hne : s.log.entries ≠ [] := Log.ne_nil_of_lastTerm_pos (by omega)
    obtain ⟨i, hik, leader, l, hl, hleads, hlterm, hbegins⟩ := hs.exists_leader_of_last hne
    have hleader := hleaders i hik leader l hl hleads (by omega)
    rcases List.prefix_or_prefix_of_prefix hleader hbegins with h | h
    · exact h
    · obtain ⟨n, entry, -, hentry, hterm⟩ := Log.exists_last hne
      have hshort := hbound entry (h.subset (List.mem_of_getElem? hentry))
      omega
  · -- both logs come from leaders of one term, so that the longer one goes on from the other
    have hne : r.log.entries ≠ [] := List.ne_nil_of_mem hmem
    have hne' : s.log.entries ≠ [] := by
      intro hnil
      have hpos := List.length_pos_iff.mpr hne
      rw [Log.lastIndex, hnil] at hlength
      exact absurd hlength (Nat.not_le_of_lt hpos)
    obtain ⟨i, -, leader, l, hl, hleads, hlterm, hbegins⟩ := hr.exists_leader_of_last hne
    obtain ⟨i', -, leader', l', hl', hleads', hlterm', hbegins'⟩ := hs.exists_leader_of_last hne'
    refine hstretch.trans ?_
    rcases isPrefix_or_isPrefix hl hl' hleads hleads' (by omega) with h | h
    · exact List.prefix_of_prefix_length_le (hbegins.trans h) hbegins' hlength
    · exact List.prefix_of_prefix_length_le hbegins (hbegins'.trans h) hlength

/-! ## What a majority has held -/

variable (run) in
/-- At some time of a term a member has had a stretch at the beginning of its log. -/
def Held (term : Nat) (stretch : List LogEntry) (name : String) : Prop :=
  ∃ k r, run.At k name r ∧ r.term = term ∧ stretch <+: r.log.entries

variable (run) in
/-- A stretch of the log of a term's leader, up to an entry of the term, that a majority has held in
that term. -/
structure Secured (term : Nat) (stretch : List LogEntry) : Prop where
  source : ∃ k leader l, run.At k leader l ∧ l.role = .leader ∧ l.term = term ∧
    stretch <+: l.log.entries
  last : ∃ entry ∈ stretch, entry.term = term
  held : Most names (run.Held term stretch)

/-- All leaders of the term go along with a secured stretch. -/
theorem Secured.along (h : run.Secured term stretch) (hs : run.At k name s)
    (hleads : s.role = .leader) (hterm : s.term = term) :
    stretch <+: s.log.entries ∨ s.log.entries <+: stretch := by
  obtain ⟨i, leader, l, hl, hleads', hlterm, hbegins⟩ := h.source
  exact hl.along hleads' hbegins hs hleads (hlterm.trans hterm.symm)

/-- No entry of a secured stretch is of a later term. -/
theorem Secured.bounded (h : run.Secured term stretch) {entry : LogEntry}
    (hentry : entry ∈ stretch) : entry.term ≤ term := by
  obtain ⟨i, leader, l, hl, -, rfl, hbegins⟩ := h.source
  exact hl.ordered.bounded entry (hbegins.subset hentry)

/-- **What a majority has held is in the log of every leader of a later term.** -/
theorem Secured.isPrefix (h : run.Secured term stretch) (hs : run.At k name s)
    (hleads : s.role = .leader) (hterm : term < s.term) : stretch <+: s.log.entries := by
  -- by induction on the time, over leaders of all later terms
  induction k using Nat.strong_induction_on generalizing name s with
  | _ k ih =>
    have halong : ∀ i < k, ∀ leader l, run.At i leader l → l.role = .leader → term ≤ l.term →
        stretch <+: l.log.entries ∨ l.log.entries <+: stretch := by
      intro i hik leader l hl hleads' hle
      rcases Nat.eq_or_lt_of_le hle with heq | hlt
      · exact h.along hl hleads' heq.symm
      · exact Or.inl (ih i hik hl hleads' hlt)
    obtain ⟨voter, -, ⟨i, r, hr, hrterm, hheld⟩, ⟨j, hjk, r', hr', hterm', hvote⟩⟩ :=
      h.held.meet (hs.elected hleads)
    rcases hr'.vote_granted hvote with rfl | ⟨g, hgj, before, after, hbefore, hafter, hafterterm,
      m, hmg, c, hc, hstands, hcterm, hcovered⟩
    · -- the new leader itself has held the stretch
      have hik := hr.le_of_term_lt hs (by omega)
      refine hr.retains hs hik (Nat.le_of_eq hrterm.symm) hheld ?_
      intro i' hi' leader l hl hleads' hle _
      exact halong i' hi' leader l hl hleads' hle
    · have hig : i ≤ g := by
        by_contra hgi
        have hle := hafter.term_le hr (by omega)
        omega
      have hkept : stretch <+: before.log.entries := by
        refine hr.retains hbefore hig (Nat.le_of_eq hrterm.symm) hheld ?_
        intro i' hi' leader l hl hleads' hle _
        exact halong i' (by omega) leader l hl hleads' hle
      obtain ⟨last, hlast, hlastterm⟩ := h.last
      have hcandidate : stretch <+: c.log.entries := by
        refine hbefore.isPrefix_of_coveredBy hc hkept hlast ?_ hcovered ?_
        · intro entry hentry
          rw [hlastterm]
          exact h.bounded hentry
        · intro i' hi' leader l hl hleads' hlt
          exact ih i' (by omega) hl hleads' (by omega)
      exact hcandidate.trans
        (hc.isPrefix_of_inOffice hs (by omega) (by omega) (Or.inr hleads))

end Run

end RaftReplica
