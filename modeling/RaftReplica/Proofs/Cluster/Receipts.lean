import RaftReplica.Proofs.Cluster.StateMachineSafety
import RaftReplica.Proofs.Replica.Answers

/-!
# What a receipt is good for

Whoever has written something gets a receipt long before it is committed, if ever.  Another leader may put
something else at the index that the receipt names.  But it does so in another term.  In one term only one
leader writes, always behind the end of its log, so that a term and an index stand for one write-ahead
alone; and what stands at this index with this term is the same in all logs.

* `Acknowledges` says that a write-ahead is acknowledged in a step.
* `Acknowledges.written` says where its data stands after this step.
* `Acknowledges.unique`: no receipt is given twice.
* `Acknowledges.data_eq`: whatever is published under a receipt is what it was given for.
-/

namespace RaftReplica

namespace Run

variable {names : List String} {run : Run names} {j k : Nat} {name other : String}
  {place place' term index index' : Nat} {write write' : WriteAhead}

variable (run) in
/-- In the step at time `k` a member acknowledges the write-ahead at a place of what it is given to write,
one by itself or a batch, with a term and an index. -/
inductive Acknowledges (k : Nat) (name : String) (place : Nat) (write : WriteAhead)
    (term index : Nat) : Prop
  | receipt {event : Event} {r : Replica} {ticket : Ticket}
      (acts : run.state (k + 1) = ((run.state k).act name event).1) (before : run.At k name r)
      (given : event.writes[place]? = some write) (waits : write.ticket = some ticket)
      (answered : (r.handle event).1.answers[WriteAhead.answersBefore event.writes place]? =
        some (ticket, .receipt term index)) : Acknowledges k name place write term index

/-- **Where the data stands.**  Whoever acknowledges a write-ahead leads in the term of the receipt, and
goes on leading with the data behind its log, at the index of the receipt. -/
theorem Acknowledges.written (h : run.Acknowledges k name place write term index) :
    ∃ r r', run.At k name r ∧ run.At (k + 1) name r' ∧
      (r.role = .leader ∧ r.term = term) ∧ (r'.role = .leader ∧ r'.term = term) ∧
      index = r.log.entries.length + place + 1 ∧
      r'.log.entries[r.log.entries.length + place]? = some ⟨index, term, write.data⟩ := by
  obtain @⟨event, r, ticket, acts, before, given, waits, answered⟩ := h
  obtain ⟨hleads, rfl, hindex⟩ := Replica.eq_of_receipt given waits answered
  obtain ⟨m, hm, rfl⟩ := before.exists_member
  have hafter : run.At (k + 1) name (m.replica.handle event).1.replica := by
    apply at_of_member (m := m.after event)
    rw [acts, Cluster.members_act, if_pos rfl, hm]
    rfl
  obtain ⟨commitIndex, lastApplied, hreplica⟩ :=
    (Turn.start m.replica).exists_replica_onWriteAheads event.writes hleads
  rw [Replica.handle_of_writes given, hreplica] at hafter
  have hdata : (event.writes.map (·.data))[place]? = some write.data := by
    rw [List.getElem?_map, given]
    rfl
  refine ⟨m.replica, _, before, hafter, ⟨hleads, rfl⟩, ⟨hleads, rfl⟩, by omega, ?_⟩
  rw [hindex]
  exact m.replica.log.getElem?_appendAll m.replica.term hdata

/-- Receipts of one term come from one leader. -/
theorem Acknowledges.name_eq (h : run.Acknowledges j name place write term index)
    (h' : run.Acknowledges k other place' write' term index') : name = other := by
  obtain ⟨r, -, hr, -, ⟨hleads, rfl⟩, -⟩ := h.written
  obtain ⟨s, -, hs, -, ⟨hleads', hterm⟩, -⟩ := h'.written
  have hmost := hs.elected hleads'
  rw [hterm] at hmost
  exact most_voted_unique (hr.elected hleads) hmost

/-- Of two receipts of one term the later one names the higher index. -/
theorem Acknowledges.index_lt (h : run.Acknowledges j name place write term index)
    (h' : run.Acknowledges k other place' write' term index') (hjk : j < k) : index < index' := by
  obtain rfl := h.name_eq h'
  obtain ⟨before, r, -, hr, -, ⟨-, hterm⟩, hindex, hentry⟩ := h.written
  obtain ⟨s, -, hs, -, ⟨hleads', hterm'⟩, -, hindex', -⟩ := h'.written
  -- the leader still has the earlier entry when it appends the later one
  have hgrown : r.log.entries <+: s.log.entries :=
    hr.isPrefix_of_inOffice hs hjk (hterm'.trans hterm.symm) (Or.inr hleads')
  have hlt := (List.getElem?_eq_some_iff.mp hentry).1
  have hle := hgrown.length_le
  omega

/-- **A receipt is given once.**  If two write-aheads are acknowledged with one term and one index, it is by
one member, at one time, and for one place. -/
theorem Acknowledges.unique (h : run.Acknowledges j name place write term index)
    (h' : run.Acknowledges k other place' write' term index) :
    j = k ∧ name = other ∧ place = place' := by
  rcases Nat.lt_trichotomy j k with hjk | rfl | hkj
  · exact absurd (h.index_lt h' hjk) (Nat.lt_irrefl _)
  · obtain rfl := h.name_eq h'
    obtain ⟨r, -, hr, -, -, -, hindex, -⟩ := h.written
    obtain ⟨s, -, hs, -, -, -, hindex', -⟩ := h'.written
    obtain rfl := hr.unique hs
    exact ⟨rfl, rfl, by omega⟩
  · exact absurd (h'.index_lt h hkj) (Nat.lt_irrefl _)

/-- **What is published under a receipt is what it was given for**, whoever publishes it and whenever. -/
theorem Acknowledges.data_eq (h : run.Acknowledges j name place write term index) {m : Member}
    (hm : (run.state k).members[other]? = some m) {entry : LogEntry} (hentry : entry ∈ m.stream)
    (hterm : entry.term = term) (hindex : entry.index = index) : entry.data = write.data := by
  obtain ⟨r, r', -, hr', -, -, hplace, hwritten⟩ := h.written
  obtain ⟨n, hn, -, hpublished⟩ := getElem?_of_mem_stream hm hentry
  obtain rfl : n = r.log.entries.length + place := by omega
  have hsame := ((at_of_member hm).matches hr').entry_eq hpublished hwritten hterm
  rw [hsame]

/-- **Receipts identify writes.**  No two write-aheads of a run, each by itself or in a batch, are
acknowledged with the same term and index; and whatever any replica publishes with the term and index of a
receipt has the data of the write-ahead that the receipt was given for. -/
theorem receipts_identify_writes (run : Run names) :
    (∀ (j k : Nat) (name other : String) (place place' : Nat) (write write' : WriteAhead)
        (term index : Nat), run.Acknowledges j name place write term index →
        run.Acknowledges k other place' write' term index →
        j = k ∧ name = other ∧ place = place') ∧
      ∀ (j k : Nat) (name other : String) (place : Nat) (write : WriteAhead) (term index : Nat)
        (m : Member), run.Acknowledges j name place write term index →
        (run.state k).members[other]? = some m →
        ∀ entry ∈ m.stream, entry.term = term → entry.index = index → entry.data = write.data := by
  constructor
  · intro j k name other place place' write write' term index h h'
    exact h.unique h'
  · intro j k name other place write term index m h hm entry hentry hterm hindex
    exact h.data_eq hm hentry hterm hindex

/-- The third write-ahead is acknowledged with the third index, under which `b` publishes its data. -/
theorem receipts_identify_writes_batch :
    ∃ m entry, batchRun.Acknowledges 3 "a" 2 ⟨[9], some 1⟩ 1 3 ∧
      (batchRun.state 10).members["b"]? = some m ∧ entry ∈ m.stream ∧ entry.term = 1 ∧
      entry.index = 3 ∧ entry.data = [9] ∧
      ∀ k other place write, batchRun.Acknowledges k other place write 1 3 →
        3 = k ∧ "a" = other ∧ 2 = place := by
  obtain ⟨hunique, hdata⟩ := receipts_identify_writes batchRun
  obtain ⟨r, hr, hanswered⟩ := batchRun.exists_at_of_any 3 "a"
    (fun r => (r.handle (.aggregatedWriteAhead sampleBatch)).1.answers[
      WriteAhead.answersBefore sampleBatch 2]? = some (1, .receipt 1 3)) (by decide +kernel)
  have hmove : batchMoves[3]? = some (.act "a" (.aggregatedWriteAhead sampleBatch) rfl) := rfl
  have hacts := state_play_succ begins_sampleCluster hmove
  have hacknowledges : batchRun.Acknowledges 3 "a" 2 ⟨[9], some 1⟩ 1 3 :=
    .receipt hacts hr rfl rfl hanswered
  obtain ⟨b, hb, hcommitted⟩ := batchRun.exists_at_of_any 10 "b"
    (fun r => r.committed[2]?.map (fun entry => (entry.term, entry.index)) = some (1, 3))
    (by decide +kernel)
  obtain ⟨entry, hentry, hplace⟩ := Option.map_eq_some_iff.mp hcommitted
  obtain ⟨hterm, hindex⟩ := Prod.mk.inj hplace
  obtain ⟨m, hm, rfl⟩ := hb.exists_member
  have hpublished : entry ∈ m.stream := by
    rw [(stream_eq hm).1]
    exact List.mem_of_getElem? hentry
  exact ⟨m, entry, hacknowledges, hm, hpublished, hterm, hindex,
    hdata 3 10 "a" "b" 2 _ 1 3 m hacknowledges hm entry hpublished hterm hindex,
    fun k other place write h => hunique 3 k "a" other 2 place _ write 1 3 hacknowledges h⟩

end Run

end RaftReplica
