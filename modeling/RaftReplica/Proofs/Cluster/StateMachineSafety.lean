import RaftReplica.Proofs.Cluster.Commitment

/-!
# What is published once

Whatever a replica has committed is the beginning of a stretch that a majority has held, whether it
leads or has it from its leader.  Of two such beginnings one goes on from the other, and no leader of the
term or of a later one contradicts them.  So a replica keeps what it has committed, and all replicas
publish the same.

* `Settled` is the beginning of a secured stretch.  `Settled.along` and `Settled.isPrefix_or_isPrefix` say
  how it stands to the logs of leaders and to other such beginnings.
* `Sound` is what holds of the commit index of every replica (`At.sound`).
* `Sound.isPrefix`: what is committed is kept.
* `stream_eq`: a commit stream holds what is committed, and nothing else, so that every published entry
  stands in the log at its index (`getElem?_of_mem_stream`).
-/

namespace RaftReplica

/-- What a replica has committed. -/
def Replica.committed (r : Replica) : List LogEntry := r.log.entries.take r.commitIndex

namespace Run

variable {names : List String} {run : Run names} {j k : Nat} {name other : String}
  {r r' s : Replica} {term term' : Nat} {beginning beginning' : List LogEntry}

/-! ## Settled beginnings -/

variable (run) in
/-- The beginning of a stretch that a majority has held in a term. -/
def Settled (term : Nat) (beginning : List LogEntry) : Prop :=
  ∃ stretch, run.Secured term stretch ∧ beginning <+: stretch

/-- All leaders since the term go along with what is settled in it. -/
theorem Settled.along (h : run.Settled term beginning) (hs : run.At k name s)
    (hleads : s.role = .leader) (hterm : term ≤ s.term) :
    beginning <+: s.log.entries ∨ s.log.entries <+: beginning := by
  obtain ⟨stretch, hsecured, hbegins⟩ := h
  rcases Nat.eq_or_lt_of_le hterm with heq | hlt
  · rcases hsecured.along hs hleads heq.symm with hle | hle
    · exact Or.inl (hbegins.trans hle)
    · exact List.prefix_or_prefix_of_prefix hbegins hle
  · exact Or.inl (hbegins.trans (hsecured.isPrefix hs hleads hlt))

/-- Of two settled beginnings one goes on from the other. -/
theorem Settled.isPrefix_or_isPrefix (h : run.Settled term beginning)
    (h' : run.Settled term' beginning') : beginning <+: beginning' ∨ beginning' <+: beginning := by
  rcases Nat.le_total term term' with hle | hle
  · obtain ⟨stretch', ⟨⟨i, leader, l, hl, hleads, hterm, hsource⟩, -, -⟩, hbegins'⟩ := h'
    have hwhole := hbegins'.trans hsource
    rcases h.along hl hleads (hterm ▸ hle) with halong | halong
    · exact List.prefix_or_prefix_of_prefix halong hwhole
    · exact Or.inr (hwhole.trans halong)
  · obtain ⟨stretch, ⟨⟨i, leader, l, hl, hleads, hterm, hsource⟩, -, -⟩, hbegins⟩ := h
    have hwhole := hbegins.trans hsource
    rcases h'.along hl hleads (hterm ▸ hle) with halong | halong
    · exact List.prefix_or_prefix_of_prefix hwhole halong
    · exact Or.inl (hwhole.trans halong)

/-! ## Commit indexes -/

variable (run) in
/-- The commit index lies within the log, and what is committed is settled in a term that has
come. -/
structure Sound (r : Replica) : Prop where
  reached : r.commitIndex ≤ r.log.entries.length
  settled : r.commitIndex = 0 ∨ ∃ term ≤ r.term, run.Settled term r.committed

/-- What is committed is kept. -/
theorem Sound.isPrefix (h : run.Sound r) (hr : run.At j name r) (hs : run.At k name s)
    (hjk : j ≤ k) : r.committed <+: s.log.entries := by
  rcases h.settled with hzero | ⟨term, hterm, hsettled⟩
  · rw [Replica.committed, hzero, List.take_zero]
    exact List.nil_prefix
  · refine hr.retains hs hjk hterm (List.take_prefix _ _) ?_
    intro i _ leader l hl hleads hle _
    exact hsettled.along hl hleads hle

/-- The later log begins with what was committed. -/
theorem Sound.take_eq (h : run.Sound r) (hr : run.At j name r) (hs : run.At k name s)
    (hjk : j ≤ k) : s.log.entries.take r.commitIndex = r.committed := by
  have hlength : r.committed.length = r.commitIndex := by
    rw [Replica.committed, List.length_take, Nat.min_eq_left h.reached]
  rw [eq_comm, ← hlength]
  exact List.prefix_iff_eq_take.mp (h.isPrefix hr hs hjk)

/-- What a follower commits of what its leader has shipped is what the leader has committed. -/
theorem Sound.follow {l : Replica} {log : Log} {request : AppendRequest} (hl : run.Sound l)
    (hships : l.Ships request) (hindexed : l.log.Indexed) (hmatch : log.Matches l.log)
    (hagrees : log.termAt? request.prevLogIndex = some request.prevLogTerm)
    (hlog : s.log = (log.merge request.prevLogIndex request.entries).2)
    (hterm : s.term = request.term) (hpos : 0 < s.commitIndex)
    (hindex : s.commitIndex =
      min request.leaderCommit (request.prevLogIndex + request.entries.length)) :
    run.Sound s := by
  have hupTo := hships.upTo_isPrefix_merge hindexed hmatch hagrees
  rw [← hlog] at hupTo
  have hlength : (l.log.entries.take
      (request.prevLogIndex + request.entries.length)).length =
        request.prevLogIndex + request.entries.length := by
    rw [List.length_take, Nat.min_eq_left hships.le_length]
  have hcommitted : s.committed = l.log.entries.take s.commitIndex := by
    rw [Replica.committed, take_eq_take_of_isPrefix hupTo (by omega), List.take_take,
      Nat.min_eq_left (by omega)]
  have hle := hupTo.length_le
  refine ⟨by omega, Or.inr ?_⟩
  rw [hships.commit] at hindex
  rcases hl.settled with hzero | ⟨term, hlterm, stretch, hsecured, hbegins⟩
  · omega
  · refine ⟨term, by rw [hterm, hships.term]; exact hlterm, stretch, hsecured, ?_⟩
    rw [hcommitted]
    exact (List.take_prefix_take_left (by omega)).trans hbegins

/-- **The commit index of every replica is sound.** -/
theorem At.sound (h : run.At k name r) : run.Sound r := by
  induction k using Nat.strong_induction_on generalizing name r with
  | _ k ih =>
    cases k with
    | zero => exact ⟨by rw [h.fresh.commitIndex]; exact Nat.zero_le _, Or.inl h.fresh.commitIndex⟩
    | succ k =>
      obtain ⟨before, -, hbefore, -⟩ := at_of_succ h
      have hsound := ih k (by omega) hbefore
      rcases hbefore.commits_of_succ h with rfl | ⟨event, t, hoffers, rfl, hcommits⟩
      · exact hsound
      · cases hcommits with
        | none index =>
          have hkept := hsound.take_eq hbefore h (Nat.le_succ k)
          have hle := (hsound.isPrefix hbefore h (Nat.le_succ k)).length_le
          have hreached := hsound.reached
          rw [Replica.committed, List.length_take, Nat.min_eq_left hreached] at hle
          refine ⟨by omega, ?_⟩
          rw [Replica.committed, index, hkept]
          refine hsound.settled.imp_right ?_
          rintro ⟨term, hterm, hsettled⟩
          exact ⟨term, Nat.le_trans hterm (hbefore.term_le h (Nat.le_succ k)), hsettled⟩
        | lead rises _ _ leads =>
          obtain ⟨hsecured, hlength⟩ := hbefore.secured_of_raise h leads rises
          exact ⟨hlength, Or.inr ⟨_, Nat.le_refl _, _, hsecured, List.prefix_rfl⟩⟩
        | follow rises _ _ agrees index _ hterm log =>
          obtain ⟨i, hik, leader, l, hl, hships, -⟩ := appendRequest_shipped hoffers
          exact (ih i (by omega) hl).follow hships hl.indexed (hbefore.matches hl) agrees log
            hterm (by omega) index

/-! ## Commit streams -/

/-- **A commit stream holds what is committed**, all of it and nothing else. -/
theorem stream_eq {m : Member} (h : (run.state k).members[name]? = some m) :
    m.stream = m.replica.committed ∧ m.replica.lastApplied = m.replica.commitIndex := by
  induction k generalizing m with
  | zero =>
    obtain ⟨-, hfresh, hstream⟩ := run.begins.member h
    rw [Replica.committed, hstream, hfresh.commitIndex, hfresh.lastApplied]
    exact ⟨rfl, rfl⟩
  | succ k ih =>
    obtain ⟨before, hbefore, rfl | ⟨event, -, rfl⟩⟩ := exists_member_of_succ h
    · exact ih hbefore
    · obtain ⟨hstream, happlied⟩ := ih hbefore
      have hat : run.At (k + 1) name (before.replica.handle event).1.replica := at_of_member h
      have hkept := (at_of_member hbefore).sound.take_eq (at_of_member hbefore) hat (Nat.le_succ k)
      have hcommits := before.replica.commits_handle event
      simp only [Member.after, hstream]
      generalize (before.replica.handle event).1 = t at hcommits hkept
      -- what is published is what lies between the two commit indexes
      have hrises : t.committed = (t.replica.log.entries.take t.replica.commitIndex).drop
            before.replica.lastApplied → before.replica.commitIndex < t.replica.commitIndex →
          before.replica.committed ++ t.committed = t.replica.committed := by
        intro hcommitted hlt
        have hmin := Nat.min_eq_left (Nat.le_of_lt hlt)
        calc before.replica.committed ++ t.committed
            = t.replica.committed.take before.replica.commitIndex ++
                t.replica.committed.drop before.replica.commitIndex := by
              rw [hcommitted, happlied, ← hkept]
              simp only [Replica.committed, List.take_take, hmin]
          _ = t.replica.committed := List.take_append_drop _ _
      cases hcommits with
      | none index applied stream =>
        refine ⟨?_, by rw [applied, happlied, index]⟩
        rw [stream, List.append_nil, ← hkept, ← index]
        rfl
      | lead rises applied stream =>
        refine ⟨hrises stream rises, ?_⟩
        rw [applied, happlied]
        omega
      | follow rises applied stream =>
        refine ⟨hrises stream rises, ?_⟩
        rw [applied, happlied]
        omega

/-- A published entry has been committed, and stands in the log at its own index. -/
theorem getElem?_of_mem_stream {m : Member} (h : (run.state k).members[name]? = some m)
    {entry : LogEntry} (hentry : entry ∈ m.stream) :
    ∃ n, entry.index = n + 1 ∧ m.replica.committed[n]? = some entry ∧
      m.replica.log.entries[n]? = some entry := by
  rw [(stream_eq h).1] at hentry
  obtain ⟨n, hn⟩ := List.getElem?_of_mem hentry
  have hlog := Log.getElem?_of_isPrefix (List.take_prefix _ _) hn
  exact ⟨n, (at_of_member h).indexed n entry hlog, hn, hlog⟩

/-- Two published entries of one index are the same. -/
theorem entry_eq_of_mem_stream {m m' : Member} (hm : (run.state j).members[name]? = some m)
    (hm' : (run.state k).members[other]? = some m') {entry entry' : LogEntry}
    (hentry : entry ∈ m.stream) (hentry' : entry' ∈ m'.stream)
    (hindex : entry.index = entry'.index) : entry = entry' := by
  have hr := at_of_member hm
  have hs := at_of_member hm'
  obtain ⟨n, hplace, hn, -⟩ := getElem?_of_mem_stream hm hentry
  obtain ⟨n', hplace', hn', -⟩ := getElem?_of_mem_stream hm' hentry'
  obtain rfl : n = n' := by omega
  have hpos : ∀ {r : Replica} {published : LogEntry}, r.committed[n]? = some published →
      r.commitIndex ≠ 0 := by
    intro r published h hzero
    rw [Replica.committed, hzero, List.take_zero] at h
    cases h
  rcases hr.sound.settled with hzero | ⟨term, -, hsettled⟩
  · exact absurd hzero (hpos hn)
  · rcases hs.sound.settled with hzero | ⟨term', -, hsettled'⟩
    · exact absurd hzero (hpos hn')
    · rcases hsettled.isPrefix_or_isPrefix hsettled' with hle | hle
      · exact Option.some.inj ((Log.getElem?_of_isPrefix hle hn).symm.trans hn')
      · exact Option.some.inj (hn.symm.trans (Log.getElem?_of_isPrefix hle hn'))

/-- **State machine safety.**  What any two replicas have published at one index, at whatever times, has
the same term and the same data; and no step removes or replaces an entry at an index that a replica has
committed. -/
theorem state_machine_safety (run : Run names) :
    (∀ (j k : Nat) (name other : String) (m m' : Member),
        (run.state j).members[name]? = some m → (run.state k).members[other]? = some m' →
        ∀ entry ∈ m.stream, ∀ entry' ∈ m'.stream, entry.index = entry'.index →
          entry.term = entry'.term ∧ entry.data = entry'.data) ∧
      ∀ (k : Nat) (name : String) (r r' : Replica), run.At k name r → run.At (k + 1) name r' →
        ∀ i, 1 ≤ i → i ≤ r.commitIndex →
          ∃ entry, r.log.get? i = some entry ∧ r'.log.get? i = some entry := by
  constructor
  · intro j k name other m m' hm hm' entry hentry entry' hentry' hindex
    rw [entry_eq_of_mem_stream hm hm' hentry hentry' hindex]
    exact ⟨rfl, rfl⟩
  · intro k name r r' hr hr' i hpos hi
    have hkept := hr.sound.isPrefix hr hr' (Nat.le_succ k)
    exact Log.exists_get?_of_take_isPrefix hkept hr.sound.reached hpos hi

/-- In the sample run both replicas have published an entry at the first index, and the first leader
keeps it when it votes for the second. -/
theorem state_machine_safety_sample :
    ∃ m m' entry entry' r r', (sample.state 14).members["a"]? = some m ∧
      (sample.state 14).members["b"]? = some m' ∧ entry ∈ m.stream ∧ entry' ∈ m'.stream ∧
      entry.index = entry'.index ∧ (entry.term = entry'.term ∧ entry.data = entry'.data) ∧
      sample.At 12 "a" r ∧ sample.At 13 "a" r' ∧ 1 ≤ r.commitIndex ∧
      ∃ kept, r.log.get? 1 = some kept ∧ r'.log.get? 1 = some kept := by
  obtain ⟨a, ha, hcommitted⟩ := sample.exists_at_of_any 14 "a"
    (fun r => r.committed = [⟨1, 1, [1]⟩]) (by decide +kernel)
  obtain ⟨b, hb, hcommitted'⟩ := sample.exists_at_of_any 14 "b"
    (fun r => r.committed = [⟨1, 1, [1]⟩]) (by decide +kernel)
  obtain ⟨m, hm, rfl⟩ := ha.exists_member
  obtain ⟨m', hm', rfl⟩ := hb.exists_member
  obtain ⟨r, hr, hindex⟩ := sample.exists_at_of_any 12 "a" (fun r => 1 ≤ r.commitIndex)
    (by decide +kernel)
  obtain ⟨r', hr'⟩ := exists_at hr.belongs.member 13
  have hentry : ⟨1, 1, [1]⟩ ∈ m.stream := by
    rw [(stream_eq hm).1, hcommitted]
    exact List.mem_singleton_self _
  have hentry' : ⟨1, 1, [1]⟩ ∈ m'.stream := by
    rw [(stream_eq hm').1, hcommitted']
    exact List.mem_singleton_self _
  obtain ⟨hpublished, hkept⟩ := state_machine_safety sample
  exact ⟨m, m', _, _, r, r', hm, hm', hentry, hentry', rfl,
    hpublished 14 14 "a" "b" m m' hm hm' _ hentry _ hentry' rfl, hr, hr', hindex,
    hkept 12 "a" r r' hr hr' 1 (Nat.le_refl 1) hindex⟩

end Run

end RaftReplica
