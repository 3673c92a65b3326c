import RaftReplica.Proofs.Replica.Life

/-!
# A commit stream without gaps

A replica publishes what it has committed, each index once and in order, whatever it is made to handle.  A
forged leader can have it drop entries that it has published, and so leave its log shorter than its commit
index.  But the commit index only rises, and whenever it does the log reaches up to the new one.  A leader
finds an entry of its own term there, and a follower has just merged entries as far as there.

* `Log.map_some_stretch` reads a stretch of a log index by index, and
  `Log.Indexed.index_of_map_some` says which indexes the entries of such a stretch carry.
* `Publishes` is what one event puts on the commit stream, and `Commits.publishes` that every event does so.
* `Life.publishes` says so of every event of a life.
-/

namespace RaftReplica

/-! ## Stretches of a log -/

namespace Log

/-- A stretch that the log reaches over holds what the log holds at each of its indexes. -/
theorem map_some_stretch (log : Log) (n : Nat) {m : Nat} (hm : m ≤ log.entries.length) :
    ((log.entries.take m).drop n).map some = (List.range' (n + 1) (m - n)).map log.get? := by
  apply List.ext_getElem?
  intro i
  rw [List.getElem?_map, List.getElem?_map, List.getElem?_drop]
  rcases Nat.lt_or_ge i (m - n) with hi | hi
  · have hlt : n + i < log.entries.length := by omega
    have hindex : n + 1 + 1 * i = n + i + 1 := by omega
    rw [List.getElem?_take_of_lt (by omega), List.getElem?_range' hi, Option.map_some, hindex,
      get?_succ, List.getElem?_eq_getElem hlt, Option.map_some]
  · have hshort : (log.entries.take m)[n + i]? = none := by
      apply List.getElem?_eq_none
      rw [List.length_take]
      omega
    have hend : (List.range' (n + 1) (m - n))[i]? = none := by
      apply List.getElem?_eq_none
      rwa [List.length_range']
    rw [hshort, hend, Option.map_none, Option.map_none]

/-- Entries that a log holds at some indexes carry these indexes. -/
theorem Indexed.index_of_map_some {log : Log} (h : log.Indexed) {entries : List LogEntry}
    {indexes : List Nat} (hentries : entries.map some = indexes.map log.get?) :
    entries.map (·.index) = indexes := by
  induction entries generalizing indexes with
  | nil =>
    cases indexes with
    | nil => rfl
    | cons index rest => cases hentries
  | cons entry rest ih =>
    cases indexes with
    | nil => cases hentries
    | cons index indexes =>
      rw [List.map_cons, List.map_cons, List.cons.injEq] at hentries
      obtain ⟨hentry, hrest⟩ := hentries
      obtain ⟨n, rfl, hn⟩ := exists_of_get? hentry.symm
      rw [List.map_cons, h n entry hn, ih hrest]

end Log

/-! ## One event -/

namespace Replica

/-- An event raises the commit index, if anything, and publishes what the log then holds between the old
one and the new one, up to which everything has then been published. -/
structure Publishes (r : Replica) (t : Turn) : Prop where
  rises : r.commitIndex ≤ t.replica.commitIndex
  applied : t.replica.lastApplied = t.replica.commitIndex
  entries : t.committed.map some =
    (List.range' (r.commitIndex + 1) (t.replica.commitIndex - r.commitIndex)).map
      t.replica.log.get?

/-- A replica that has published everything it has committed keeps to that. -/
theorem Commits.publishes {r : Replica} {event : Event} {t : Turn} (h : r.Commits event t)
    (happlied : r.lastApplied = r.commitIndex) : r.Publishes t := by
  -- wherever the commit index rises to, the log must have come to reach there
  have hrises : r.commitIndex < t.replica.commitIndex →
      t.replica.lastApplied = max r.lastApplied t.replica.commitIndex →
      t.committed = (t.replica.log.entries.take t.replica.commitIndex).drop r.lastApplied →
      t.replica.commitIndex ≤ t.replica.log.entries.length → r.Publishes t := by
    intro hlt happlied' hstream hreaches
    refine ⟨Nat.le_of_lt hlt, ?_, ?_⟩
    · rw [happlied', happlied]
      omega
    · rw [hstream, happlied]
      exact t.replica.log.map_some_stretch r.commitIndex hreaches
  cases h with
  | none index applied stream =>
    refine ⟨Nat.le_of_eq index.symm, ?_, ?_⟩
    · rw [applied, happlied, index]
    · rw [stream, index, Nat.sub_self]
      rfl
  | lead rises applied stream leads majority present =>
    exact hrises rises applied stream (Log.le_length_of_termAt? present)
  | @follow request ticket _ rises applied stream agrees index role term log =>
    apply hrises rises applied stream
    have hprevious := Log.le_length_of_termAt? agrees
    have hmerged := Log.le_length_merge hprevious request.entries
    rw [log, index]
    omega

end Replica

/-! ## A whole life -/

namespace Life

variable (life : Life)

/-- After every event all that is committed has been published. -/
theorem lastApplied_eq (k : Nat) : (life.state k).lastApplied = (life.state k).commitIndex := by
  induction k with
  | zero => rw [life.fresh.lastApplied, life.fresh.commitIndex]
  | succ k ih =>
    have hcommits := (life.state k).commits_handle (life.event k)
    exact (hcommits.publishes ih).applied

/-- **Every event publishes the stretch of the log by which it raises the commit index.** -/
theorem publishes (k : Nat) : (life.state k).Publishes (life.turn k) :=
  ((life.state k).commits_handle (life.event k)).publishes (life.lastApplied_eq k)

/-- The entries published so far carry the indexes from one up to the commit index. -/
theorem index_stream (k : Nat) :
    (life.stream k).map (·.index) = List.range' 1 (life.state k).commitIndex := by
  induction k with
  | zero =>
    rw [life.stream_zero, life.fresh.commitIndex]
    rfl
  | succ k ih =>
    have hpublishes := life.publishes k
    have hnew := (life.indexed (k + 1)).index_of_map_some hpublishes.entries
    have hrises : (life.state k).commitIndex ≤ (life.state (k + 1)).commitIndex :=
      hpublishes.rises
    calc (life.stream (k + 1)).map (·.index)
        = List.range' 1 (life.state k).commitIndex ++
            List.range' ((life.state k).commitIndex + 1)
              ((life.state (k + 1)).commitIndex - (life.state k).commitIndex) := by
          rw [stream_succ, List.map_append, ih, hnew, replica_turn]
      _ = List.range' 1 (life.state (k + 1)).commitIndex := by
          rw [Nat.add_comm _ 1, List.range'_append_1, Nat.add_sub_cancel' hrises]

/-- **The commit stream of a replica has no gaps**, whatever the outside world sends.  The entries
published so far carry the indexes `1, 2, …` up to the commit index, each once and in this order; after
every event everything committed has been published; the commit index never falls; and what an event
publishes is what the log then holds at each of the indexes that are newly committed, where no entry is
missing. -/
theorem commit_stream_gapless (life : Life) :
    (∀ k, (life.stream k).map (·.index) = List.range' 1 (life.state k).commitIndex) ∧
      (∀ k, (life.state k).lastApplied = (life.state k).commitIndex) ∧
      (∀ k, (life.state k).commitIndex ≤ (life.state (k + 1)).commitIndex) ∧
      ∀ k, (life.turn k).committed.map some =
        (List.range' ((life.state k).commitIndex + 1)
          ((life.state (k + 1)).commitIndex - (life.state k).commitIndex)).map
            (life.state (k + 1)).log.get? :=
  ⟨life.index_stream, life.lastApplied_eq, fun k => (life.publishes k).rises,
    fun k => (life.publishes k).entries⟩

/-- `a` takes two entries over from `b` and publishes them, loses the second to somebody else who claims
to lead in the next term, and publishes a third one with which this leader goes on. -/
def robbed : Life := sample [
  .appendRequest ⟨1, "b", 0, 0, 2, [⟨1, 1, [1]⟩, ⟨2, 1, [2]⟩]⟩ 0,
  .appendRequest ⟨2, "x", 0, 0, 0, [⟨1, 2, [7]⟩]⟩ 0,
  .appendRequest ⟨2, "x", 1, 2, 3, [⟨2, 2, [8]⟩, ⟨3, 2, [9]⟩]⟩ 0]

/-- Although its log gets shorter than its commit index, the replica ends up with the indexes one to three
on its commit stream. -/
theorem commit_stream_gapless_robbed :
    (robbed.state 2).log.lastIndex < (robbed.state 2).commitIndex ∧
      (robbed.state 2).commitIndex = 2 ∧ (robbed.state 3).commitIndex = 3 ∧
        (robbed.stream 3).map (·.index) = List.range' 1 (robbed.state 3).commitIndex ∧
          (robbed.turn 2).committed.map some =
            (List.range' ((robbed.state 2).commitIndex + 1)
              ((robbed.state (2 + 1)).commitIndex - (robbed.state 2).commitIndex)).map
                (robbed.state (2 + 1)).log.get? := by
  obtain ⟨hindexes, -, -, hentries⟩ := commit_stream_gapless robbed
  refine ⟨?_, ?_, ?_, hindexes 3, hentries 2⟩
  · decide +kernel
  · decide +kernel
  · decide +kernel

end Life

end RaftReplica
