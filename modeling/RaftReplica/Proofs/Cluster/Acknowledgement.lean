import RaftReplica.Proofs.Cluster.Commitment

/-!
# What is known of a peer is true

A leader counts a peer as matching its log up to where a reply once said so.  The reply may be old by then,
and others may have come in any order since.  Still the count is right.  Within the leader's term the peer
has merged nothing but what this leader had shipped, and so it has lost nothing of what it had replied for.

* `pauseAt` is a run that goes no further than some time.  What has been held in it has been held by then.
* `At.held_of_matched` goes back from a record of a peer to the time at which the peer had what it says.
* `At.isPrefix_of_matched`: the peer has it still, as long as it has not moved on to a later term.
-/

namespace RaftReplica

namespace Run

variable {names : List String} {run : Run names} {j k : Nat} {name other : String}
  {r s : Replica} {progress : Progress} {p : PeerProgress}

/-! ## The past of a run -/

/-- The run that does as this one up to a time, and pauses from then on. -/
def pauseAt (run : Run names) (k : Nat) : Run names where
  state i := run.state (min i k)
  begins := by
    rw [Nat.zero_min]
    exact run.begins
  step i := by
    rcases Nat.lt_or_ge i k with hi | hi
    · rw [Nat.min_eq_left (Nat.le_of_lt hi), Nat.min_eq_left hi]
      exact run.step i
    · rw [Nat.min_eq_right hi, Nat.min_eq_right (Nat.le_succ_of_le hi)]
      exact .refl _

theorem state_pauseAt (i : Nat) : (run.pauseAt k).state i = run.state (min i k) := rfl

theorem At.pauseAt (h : run.At k name r) : (run.pauseAt k).At k name r := by
  rw [At, state_pauseAt, Nat.min_self]
  exact h

/-- Whatever has been held in a run that pauses has been held by the time of the pause. -/
theorem Held.of_pauseAt {term : Nat} {stretch : List LogEntry}
    (h : (run.pauseAt k).Held term stretch name) :
    ∃ i ≤ k, ∃ r, run.At i name r ∧ r.term = term ∧ stretch <+: r.log.entries := by
  obtain ⟨i, r, hr, hheld⟩ := h
  exact ⟨min i k, Nat.min_le_right i k, r, hr, hheld⟩

/-! ## Records -/

/-- **Behind a record stands a peer** that has had the leader's log up to the match, at that time or
earlier in the leader's term. -/
theorem At.held_of_matched (hr : run.At k name r) (hleads : r.role = .leader)
    (hview : r.progress = some progress) (hp : progress.get? other = some p)
    (hpos : 0 < p.matched) :
    other ∈ names ∧ p.matched ≤ r.log.entries.length ∧
      ∃ i ≤ k, ∃ s, run.At i other s ∧ s.term = r.term ∧
        r.log.entries.take p.matched <+: s.log.entries := by
  obtain ⟨progress', hview', htrue⟩ := hr.pauseAt.view hleads
  obtain rfl : progress' = progress := Option.some.inj (hview'.symm.trans hview)
  obtain ⟨hle, hheld⟩ := htrue.held other p hp
  have hknown : progress'.contains other = true := by
    rw [Progress.contains, Std.TreeMap.contains_eq_isSome_getElem?]
    exact Option.isSome_of_eq_some hp
  exact ⟨((htrue.known other).mp hknown).1, hle, (hheld hpos).of_pauseAt⟩

/-- **A peer keeps what a leader knows of it** until it moves on to a later term. -/
theorem At.isPrefix_of_matched (hr : run.At k name r) (hleads : r.role = .leader)
    (hview : r.progress = some progress) (hp : progress.get? other = some p)
    (hpos : 0 < p.matched) (hs : run.At k other s) :
    r.term ≤ s.term ∧
      (s.term = r.term → r.log.entries.take p.matched <+: s.log.entries) := by
  obtain ⟨-, -, i, hik, before, hbefore, hterm, hheld⟩ := hr.held_of_matched hleads hview hp hpos
  have hrises := hbefore.term_le hs hik
  refine ⟨by omega, ?_⟩
  intro hsame
  refine hbefore.retains hs hik (Nat.le_of_eq hterm.symm) hheld ?_
  -- leaders in between are of this leader's term, so that their logs go along with its own
  intro i' _ leader l hl hleads' hfirst hlast
  exact hr.along hleads (List.take_prefix _ _) hl hleads' (by omega)

/-- **Truthful acknowledgements.**  Whenever a leader has noted that a peer matches its log up to an index,
the peer is in the leader's term or in a later one; and in the leader's term it has the same entries as the
leader up to that index. -/
theorem truthful_acknowledgements (hr : run.At k name r) (hleads : r.role = .leader)
    (hview : r.progress = some progress) (hp : progress.get? other = some p)
    (hpos : 0 < p.matched) :
    ∃ s, run.At k other s ∧ r.term ≤ s.term ∧
      (s.term = r.term → ∀ i, 1 ≤ i → i ≤ p.matched →
        ∃ entry, r.log.get? i = some entry ∧ s.log.get? i = some entry) := by
  obtain ⟨hmember, hle, -⟩ := hr.held_of_matched hleads hview hp hpos
  obtain ⟨s, hs⟩ := exists_at hmember k
  obtain ⟨hterm, hkept⟩ := hr.isPrefix_of_matched hleads hview hp hpos hs
  refine ⟨s, hs, hterm, ?_⟩
  intro hsame i hi himatched
  exact Log.exists_get?_of_take_isPrefix (hkept hsame) hle hi himatched

/-- In the sample run the leader of the first term knows that its peer matches its log up to the first
index. -/
theorem truthful_acknowledgements_sample :
    ∃ r progress p s, sample.At 8 "a" r ∧ r.role = .leader ∧ r.progress = some progress ∧
      progress.get? "b" = some p ∧ 0 < p.matched ∧ sample.At 8 "b" s ∧ s.term = r.term ∧
      ∃ entry, r.log.get? 1 = some entry ∧ s.log.get? 1 = some entry := by
  obtain ⟨r, hr, hleads, hterm, hrecord⟩ := sample.exists_at_of_any 8 "a"
    (fun r => r.role = .leader ∧ r.term = 1 ∧ r.progress.bind (·.get? "b") = some ⟨2, 1⟩)
    (by decide +kernel)
  obtain ⟨progress, hview, hp⟩ := Option.bind_eq_some_iff.mp hrecord
  obtain ⟨peer, hpeer, hterm'⟩ := sample.exists_at_of_any 8 "b" (fun r => r.term = 1)
    (by decide +kernel)
  obtain ⟨s, hs, -, hsame⟩ := truthful_acknowledgements hr hleads hview hp Nat.one_pos
  obtain rfl := hs.unique hpeer
  have hterms := hterm'.trans hterm.symm
  exact ⟨r, progress, _, s, hr, hleads, hview, hp, Nat.one_pos, hs, hterms,
    hsame hterms 1 (Nat.le_refl 1) (Nat.le_refl 1)⟩

end Run

end RaftReplica
