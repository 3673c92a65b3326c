import RaftReplica.Proofs.Log.Merge

/-!
# Batches and the order of terms

A leader puts a batch of data behind its log, all of its own term.  Along a log the terms never fall, and
they never exceed the term of the replica that holds it.

* `appendAll` is the log with a batch behind it.
* `Ordered` is the order of terms with its bound, which batches and prefixes keep.
* `coveredBy_cases` says what it takes for another log to be at least as up to date.
-/

namespace RaftReplica.Log

/-- A new entry leaves the old ones where they are. -/
theorem termAt?_append_of_le {log : Log} {index : Nat} (h : index ≤ log.lastIndex) (term : Nat)
    (data : Bytes) : (log.append term data).2.termAt? index = log.termAt? index := by
  cases index with
  | zero => rfl
  | succ n =>
    rw [termAt?_succ, termAt?_succ]
    exact congrArg _ (List.getElem?_append_left h)

theorem termAt?_append_last (log : Log) (term : Nat) (data : Bytes) :
    (log.append term data).2.termAt? (log.lastIndex + 1) = some term := by
  rw [termAt?, if_neg (Nat.succ_ne_zero _), get?_append_last, Option.map_some]

/-- The log with a batch of data behind it, all of one term. -/
def appendAll (log : Log) (term : Nat) (batch : List Bytes) : Log :=
  ⟨log.entries ++ batch.mapIdx fun k data => ⟨log.entries.length + 1 + k, term, data⟩⟩

@[simp] theorem appendAll_nil (log : Log) (term : Nat) : log.appendAll term [] = log := by
  simp [appendAll]

/-- A batch is appended one piece of data after the other. -/
theorem appendAll_cons (log : Log) (term : Nat) (data : Bytes) (batch : List Bytes) :
    log.appendAll term (data :: batch) = (log.append term data).2.appendAll term batch := by
  simp only [appendAll, append, lastIndex, List.mapIdx_cons, List.length_append,
    List.length_singleton, List.append_assoc, List.singleton_append, Nat.add_zero]
  congr 3
  simp only [LogEntry.mk.injEq, List.mapIdx_eq_mapIdx_iff, Bytes, and_true]
  omega

theorem lastIndex_appendAll (log : Log) (term : Nat) (batch : List Bytes) :
    (log.appendAll term batch).lastIndex = log.lastIndex + batch.length := by
  simp [appendAll, lastIndex]

/-- The old log is the beginning of one with a batch behind it. -/
theorem isPrefix_appendAll (log : Log) (term : Nat) (batch : List Bytes) :
    log.entries <+: (log.appendAll term batch).entries :=
  List.prefix_append _ _

theorem Indexed.appendAll {log : Log} (h : log.Indexed) (term : Nat) (batch : List Bytes) :
    (log.appendAll term batch).Indexed := by
  induction batch generalizing log with
  | nil => rwa [appendAll_nil]
  | cons data rest ih =>
    rw [appendAll_cons]
    exact ih (h.append term data)

/-- What stands behind the old log is of the term of the batch. -/
theorem term_eq_of_getElem?_appendAll {log : Log} {term : Nat} {batch : List Bytes} {n : Nat}
    {entry : LogEntry} (hn : log.entries.length ≤ n)
    (h : (log.appendAll term batch).entries[n]? = some entry) : entry.term = term := by
  rw [appendAll, List.getElem?_append_right hn, List.getElem?_mapIdx] at h
  obtain ⟨data, -, rfl⟩ := Option.map_eq_some_iff.mp h
  rfl

/-- What stands in a batch at a place stands that far behind the end of the old log. -/
theorem getElem?_appendAll (log : Log) (term : Nat) {batch : List Bytes} {place : Nat} {data : Bytes}
    (h : batch[place]? = some data) :
    (log.appendAll term batch).entries[log.entries.length + place]? =
      some ⟨log.entries.length + 1 + place, term, data⟩ := by
  have hbehind : log.entries.length ≤ log.entries.length + place := Nat.le_add_right _ _
  rw [appendAll, List.getElem?_append_right hbehind, Nat.add_sub_cancel_left, List.getElem?_mapIdx, h,
    Option.map_some]

/-! ## The order of terms -/

/-- Along the log the terms never fall, and they never exceed a bound. -/
structure Ordered (log : Log) (bound : Nat) : Prop where
  sorted : log.entries.Pairwise fun entry later => entry.term ≤ later.term
  bounded : ∀ entry ∈ log.entries, entry.term ≤ bound

theorem ordered_empty (bound : Nat) : empty.Ordered bound :=
  ⟨List.Pairwise.nil, fun _ hentry => absurd hentry List.not_mem_nil⟩

theorem Ordered.mono {log : Log} {bound bound' : Nat} (h : log.Ordered bound)
    (hle : bound ≤ bound') : log.Ordered bound' :=
  ⟨h.sorted, fun entry hentry => Nat.le_trans (h.bounded entry hentry) hle⟩

theorem Ordered.of_isPrefix {log log' : Log} {bound : Nat} (h : log.Ordered bound)
    (hbegins : log'.entries <+: log.entries) : log'.Ordered bound :=
  ⟨h.sorted.sublist hbegins.sublist, fun entry hentry => h.bounded entry (hbegins.subset hentry)⟩

/-- Of two entries the one further on has no lower term. -/
theorem Ordered.term_le {log : Log} {bound : Nat} (h : log.Ordered bound) {n m : Nat}
    {entry later : LogEntry} (hentry : log.entries[n]? = some entry)
    (hlater : log.entries[m]? = some later) (hnm : n ≤ m) : entry.term ≤ later.term := by
  obtain ⟨hn, rfl⟩ := List.getElem?_eq_some_iff.mp hentry
  obtain ⟨hm, rfl⟩ := List.getElem?_eq_some_iff.mp hlater
  rcases Nat.eq_or_lt_of_le hnm with rfl | hlt
  · exact Nat.le_refl _
  · exact List.pairwise_iff_getElem.mp h.sorted n m hn hm hlt

/-- An entry of the highest term may stand behind all others. -/
theorem Ordered.append {log : Log} {bound : Nat} (h : log.Ordered bound) (data : Bytes) :
    (log.append bound data).2.Ordered bound := by
  constructor
  · refine List.pairwise_append.mpr ⟨h.sorted, List.pairwise_singleton _ _, ?_⟩
    intro entry hentry later hlater
    rw [List.mem_singleton.mp hlater]
    exact h.bounded entry hentry
  · intro entry hentry
    rcases List.mem_append.mp hentry with hold | hnew
    · exact h.bounded entry hold
    · exact Nat.le_of_eq (congrArg (·.term) (List.mem_singleton.mp hnew))

theorem Ordered.appendAll {log : Log} {bound : Nat} (h : log.Ordered bound) (batch : List Bytes) :
    (log.appendAll bound batch).Ordered bound := by
  induction batch generalizing log with
  | nil => rwa [appendAll_nil]
  | cons data rest ih =>
    rw [appendAll_cons]
    exact ih (h.append data)

/-! ## The last term -/

/-- A log that is not empty has a last entry, and the last term is that entry's. -/
theorem exists_last {log : Log} (h : log.entries ≠ []) :
    ∃ n entry, log.entries.length = n + 1 ∧ log.entries[n]? = some entry ∧
      log.lastTerm = entry.term := by
  have hlength : 0 < log.entries.length := List.length_pos_iff.mpr h
  refine ⟨log.entries.length - 1, log.entries.getLast h, by omega, ?_, ?_⟩
  · rw [← List.getLast?_eq_getElem?, List.getLast?_eq_some_getLast h]
  · rw [lastTerm, List.getLast?_eq_some_getLast h]

theorem ne_nil_of_lastTerm_pos {log : Log} (h : 0 < log.lastTerm) : log.entries ≠ [] := by
  intro hnil
  rw [lastTerm, hnil] at h
  exact Nat.lt_irrefl 0 h

/-- No entry of an ordered log exceeds the last term. -/
theorem Ordered.term_le_lastTerm {log : Log} {bound : Nat} (h : log.Ordered bound)
    {entry : LogEntry} (hentry : entry ∈ log.entries) : entry.term ≤ log.lastTerm := by
  obtain ⟨n, last, hlength, hlast, hterm⟩ := exists_last (List.ne_nil_of_mem hentry)
  obtain ⟨m, hm⟩ := List.getElem?_of_mem hentry
  have hlt := (List.getElem?_eq_some_iff.mp hm).1
  rw [hterm]
  exact h.term_le hm hlast (by omega)

/-- A log that covers another has the later last term, or with equal ones is as long. -/
theorem coveredBy_cases {log : Log} {lastTerm lastIndex : Nat}
    (h : log.coveredBy lastTerm lastIndex = true) :
    log.lastTerm < lastTerm ∨ log.lastTerm = lastTerm ∧ log.entries.length ≤ lastIndex := by
  unfold coveredBy at h
  split at h
  · exact Or.inl (of_decide_eq_true h)
  · rename_i hsame
    exact Or.inr ⟨(Decidable.not_not.mp hsame).symm, of_decide_eq_true h⟩

end RaftReplica.Log
