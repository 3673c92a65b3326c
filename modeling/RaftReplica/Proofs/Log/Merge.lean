import RaftReplica.Log

/-!
# Merging what a leader ships

A follower merges a stretch of its leader's log behind an entry that both logs share.  If the two logs
match, which means that equal terms at one index make them equal up to there, only two things can come
of it: the follower's log reaches over the whole stretch already and stays as it is, or it becomes the
leader's log up to the end of the stretch.  `entries_merge` says which of the two happens.

* `Indexed` says that every entry carries its own index, which appending and merging keep.
* `take_merge` says that merging leaves alone what comes before the stretch.
* `Matches` is the log matching property of two logs, which `Matches.merge` keeps.
* `take_eq_of_termAt?` turns an equal term at an index into an equal prefix.
-/

namespace RaftReplica.Log

/-! ## Entries and their indexes -/

/-- What a list holds at an index, every longer list that starts with it holds as well. -/
theorem getElem?_of_isPrefix {α : Type} {l m : List α} (h : l <+: m) {n : Nat} {x : α}
    (hx : l[n]? = some x) : m[n]? = some x := by
  obtain ⟨tail, rfl⟩ := h
  rw [List.getElem?_append_left (List.getElem?_eq_some_iff.mp hx).1, hx]

/-- Every entry carries the index at which it stands. -/
def Indexed (log : Log) : Prop :=
  ∀ (n : Nat) (entry : LogEntry), log.entries[n]? = some entry → entry.index = n + 1

instance (log : Log) : Decidable log.Indexed :=
  decidable_of_iff
    (∀ n ∈ List.range log.entries.length, ∀ entry ∈ log.entries[n]?, entry.index = n + 1) <| by
    constructor
    · intro h n entry hentry
      exact h n (List.mem_range.mpr (List.getElem?_eq_some_iff.mp hentry).1) entry hentry
    · intro h n _ entry hentry
      exact h n entry hentry

theorem termAt?_succ (log : Log) (n : Nat) :
    log.termAt? (n + 1) = (log.entries[n]?).map (·.term) := rfl

/-- The entry at an index is one place further in front in the list. -/
theorem exists_of_get? {log : Log} {index : Nat} {entry : LogEntry}
    (h : log.get? index = some entry) : ∃ n, index = n + 1 ∧ log.entries[n]? = some entry := by
  cases index with
  | zero => cases h
  | succ n => exact ⟨n, rfl, h⟩

/-- Where one log begins like another, it holds the same entries. -/
theorem exists_get?_of_take_isPrefix {log other : Log} {index : Nat}
    (h : log.entries.take index <+: other.entries) (hindex : index ≤ log.entries.length) {i : Nat}
    (hpos : 1 ≤ i) (hi : i ≤ index) :
    ∃ entry, log.get? i = some entry ∧ other.get? i = some entry := by
  obtain ⟨n, rfl⟩ : ∃ n, i = n + 1 := ⟨i - 1, by omega⟩
  have hn : n < log.entries.length := by omega
  have hget : (log.entries.take index)[n]? = some log.entries[n] := by
    rw [List.getElem?_take_of_lt hi, List.getElem?_eq_getElem hn]
  exact ⟨log.entries[n], List.getElem?_eq_getElem hn, getElem?_of_isPrefix h hget⟩

theorem indexed_empty : empty.Indexed := by
  intro n entry h
  cases h

/-- A new entry behind the last one may carry the next index. -/
theorem Indexed.concat {log : Log} (h : log.Indexed) (term : Nat) (data : Bytes) :
    Log.Indexed ⟨log.entries ++ [⟨log.entries.length + 1, term, data⟩]⟩ := by
  intro n entry hentry
  rcases Nat.lt_or_ge n log.entries.length with hn | hn
  · rw [List.getElem?_append_left hn] at hentry
    exact h n entry hentry
  · rw [List.getElem?_append_right hn, List.getElem?_singleton] at hentry
    split at hentry
    · cases hentry
      simp only
      omega
    · cases hentry

theorem Indexed.take {log : Log} (h : log.Indexed) (count : Nat) :
    Log.Indexed ⟨log.entries.take count⟩ := by
  intro n entry hentry
  have hsome : log.entries[n]? = some entry := by
    rw [← hentry, List.getElem?_take_of_lt]
    have := (List.getElem?_eq_some_iff.mp hentry).1
    simp only [List.length_take] at this
    omega
  exact h n entry hsome

theorem Indexed.append {log : Log} (h : log.Indexed) (term : Nat) (data : Bytes) :
    (log.append term data).2.Indexed :=
  h.concat term data

/-- An entry placed within the log or right behind it carries its index. -/
theorem Indexed.place {log : Log} (h : log.Indexed) {n : Nat} (hn : n ≤ log.entries.length)
    (term : Nat) (data : Bytes) : (log.place (n + 1) term data).Indexed := by
  unfold Log.place
  rw [termAt?_succ]
  rcases Nat.lt_or_ge n log.entries.length with hlt | hge
  · simp only [List.getElem?_eq_getElem hlt, Option.map_some, Nat.add_sub_cancel]
    split
    · exact h
    · have htake := (h.take n).concat term data
      rwa [List.length_take, Nat.min_eq_left hn] at htake
  · simp only [List.getElem?_eq_none hge, Option.map_none]
    have hlength : n = log.entries.length := by omega
    subst hlength
    exact h.concat term data

/-- Placing within the log or right behind it makes the log reach at least that far. -/
theorem lt_length_place {log : Log} {n : Nat} (hn : n ≤ log.entries.length)
    (term : Nat) (data : Bytes) : n < (log.place (n + 1) term data).entries.length := by
  unfold place
  rw [termAt?_succ]
  rcases Nat.lt_or_ge n log.entries.length with hlt | hge
  · simp only [List.getElem?_eq_getElem hlt, Option.map_some, Nat.add_sub_cancel]
    split
    · exact hlt
    · simp only [List.length_append, List.length_take, List.length_singleton]
      omega
  · simp only [List.getElem?_eq_none hge, Option.map_none, List.length_append,
      List.length_singleton]
    omega

/-- Whatever entries are merged, the log comes to reach over all of them. -/
theorem le_length_merge {log : Log} {previous : Nat} (hprevious : previous ≤ log.entries.length)
    (entries : List LogEntry) :
    previous + entries.length ≤ (log.merge previous entries).2.entries.length := by
  induction entries generalizing log previous with
  | nil => exact hprevious
  | cons entry rest ih =>
    have hplaced := lt_length_place hprevious entry.term entry.data
    calc previous + (entry :: rest).length
        = previous + 1 + rest.length := by rw [List.length_cons]; omega
      _ ≤ (log.merge previous (entry :: rest)).2.entries.length := ih hplaced

/-- Placing an entry changes nothing in front of it. -/
theorem take_place {log : Log} {n : Nat} (hn : n ≤ log.entries.length) (term : Nat) (data : Bytes) :
    (log.place (n + 1) term data).entries.take n = log.entries.take n := by
  have hfront : (log.entries.take n).length = n := by rw [List.length_take, Nat.min_eq_left hn]
  unfold place
  rw [termAt?_succ]
  rcases Nat.lt_or_ge n log.entries.length with hlt | hge
  · simp only [List.getElem?_eq_getElem hlt, Option.map_some, Nat.add_sub_cancel]
    split
    · rfl
    · exact List.take_left' hfront
  · simp only [List.getElem?_eq_none hge, Option.map_none]
    exact List.take_append_of_le_length hn

/-- Whatever entries are merged, nothing changes in front of them. -/
theorem take_merge {log : Log} {previous : Nat} (hprevious : previous ≤ log.entries.length)
    (entries : List LogEntry) :
    (log.merge previous entries).2.entries.take previous = log.entries.take previous := by
  induction entries generalizing log previous with
  | nil => rfl
  | cons entry rest ih =>
    have hplaced := lt_length_place hprevious entry.term entry.data
    have hrest := congrArg (List.take previous) (ih hplaced)
    have hmin : min previous (previous + 1) = previous := by omega
    rw [List.take_take, List.take_take, hmin] at hrest
    rw [merge, hrest, take_place hprevious]

/-- Whatever entries are merged, they come to carry their own indexes. -/
theorem Indexed.merge {log : Log} (h : log.Indexed) {previous : Nat}
    (hprevious : previous ≤ log.entries.length) (entries : List LogEntry) :
    (log.merge previous entries).2.Indexed := by
  induction entries generalizing log previous with
  | nil => exact h
  | cons entry rest ih =>
    exact ih (h.place hprevious entry.term entry.data)
      (lt_length_place hprevious entry.term entry.data)

/-- A log that has a term at an index reaches up to there. -/
theorem le_length_of_termAt? {log : Log} {index term : Nat} (h : log.termAt? index = some term) :
    index ≤ log.entries.length := by
  cases index with
  | zero => omega
  | succ n =>
    rw [termAt?_succ, Option.map_eq_some_iff] at h
    obtain ⟨entry, hentry, -⟩ := h
    exact (List.getElem?_eq_some_iff.mp hentry).1

/-- A log has a term at every index up to its last one. -/
theorem exists_termAt?_of_le {log : Log} {index : Nat} (h : index ≤ log.lastIndex) :
    ∃ term, log.termAt? index = some term := by
  cases index with
  | zero => exact ⟨0, rfl⟩
  | succ n => exact ⟨_, by rw [termAt?_succ, List.getElem?_eq_getElem h, Option.map_some]⟩

/-- Logs that agree up to an index have the same term there. -/
theorem termAt?_eq_of_take {log other : Log} {index : Nat}
    (h : log.entries.take index = other.entries.take index) :
    log.termAt? index = other.termAt? index := by
  cases index with
  | zero => rfl
  | succ n =>
    have hn := Nat.lt_succ_self n
    rw [termAt?_succ, termAt?_succ, ← List.getElem?_take_of_lt hn, h, List.getElem?_take_of_lt hn]

/-- The entries from an index on are the beginning of what lies behind the index before. -/
theorem entriesFrom_isPrefix (log : Log) (next max : Nat) :
    log.entriesFrom next max <+: log.entries.drop (next - 1) := by
  unfold entriesFrom
  split
  · exact List.nil_prefix
  · exact List.take_prefix _ _

/-! ## Logs that match -/

/-- Where two logs hold entries of one term at one index, they are the same up to that index. -/
def Matches (log other : Log) : Prop :=
  ∀ (n : Nat) (entry entry' : LogEntry), log.entries[n]? = some entry →
    other.entries[n]? = some entry' → entry.term = entry'.term →
      log.entries.take (n + 1) = other.entries.take (n + 1)

instance (log other : Log) : Decidable (log.Matches other) :=
  decidable_of_iff
    (∀ n ∈ List.range log.entries.length, ∀ entry ∈ log.entries[n]?, ∀ entry' ∈ other.entries[n]?,
      entry.term = entry'.term → log.entries.take (n + 1) = other.entries.take (n + 1)) <| by
    constructor
    · intro h n entry entry' hentry hentry'
      have hn := (List.getElem?_eq_some_iff.mp hentry).1
      exact h n (List.mem_range.mpr hn) entry hentry entry' hentry'
    · intro h n _ entry hentry entry' hentry'
      exact h n entry entry' hentry hentry'

/-- Whatever another log begins with matches it. -/
theorem Matches.of_eq_take {log other : Log} {count : Nat}
    (h : log.entries = other.entries.take count) : log.Matches other := by
  intro n entry entry' hentry _ _
  have hn := (List.getElem?_eq_some_iff.mp hentry).1
  rw [h, List.length_take] at hn
  rw [h, List.take_take, Nat.min_eq_left (by omega)]

/-- Matching logs hold one entry of one term at one index. -/
theorem Matches.entry_eq {log other : Log} (h : log.Matches other) {n : Nat}
    {entry entry' : LogEntry} (hentry : log.entries[n]? = some entry)
    (hentry' : other.entries[n]? = some entry') (hterm : entry.term = entry'.term) :
    entry = entry' := by
  have htake := h n entry entry' hentry hentry' hterm
  have hn := Nat.lt_succ_self n
  rw [← List.getElem?_take_of_lt hn, htake, List.getElem?_take_of_lt hn, hentry'] at hentry
  exact (Option.some.inj hentry).symm

/-- One term at one index, and be it zero, makes matching logs equal up to there. -/
theorem Matches.take_eq_of_termAt? {log other : Log} (h : log.Matches other) {index term : Nat}
    (hlog : log.termAt? index = some term) (hother : other.termAt? index = some term) :
    log.entries.take index = other.entries.take index := by
  cases index with
  | zero => simp
  | succ n =>
    rw [termAt?_succ, Option.map_eq_some_iff] at hlog hother
    obtain ⟨entry, hentry, hterm⟩ := hlog
    obtain ⟨entry', hentry', hterm'⟩ := hother
    exact h n entry entry' hentry hentry' (hterm.trans hterm'.symm)

/-! ## Merging -/

/-- The shipped entry itself stands where it is written, since the leader's entries carry their
indexes. -/
private theorem written_eq {source : Log} (hindexed : source.Indexed) {n : Nat}
    {entry : LogEntry} (h : source.entries[n]? = some entry) :
    (⟨n + 1, entry.term, entry.data⟩ : LogEntry) = entry := by
  rw [← hindexed n entry h]

/-- A stretch that starts with an entry has that entry where the stretch starts, and the rest of it
starts one further. -/
private theorem shipped_cons {source : List LogEntry} {previous : Nat} {entry : LogEntry}
    {rest : List LogEntry} (h : entry :: rest <+: source.drop previous) :
    source[previous]? = some entry ∧ rest <+: source.drop (previous + 1) := by
  obtain ⟨tail, htail⟩ := h
  constructor
  · have hhead := congrArg (·[0]?) htail
    simpa [List.getElem?_drop] using hhead.symm
  · refine ⟨tail, ?_⟩
    have hdrop := congrArg (List.drop 1) htail
    simpa [List.drop_drop, Nat.add_comm] using hdrop

/-- A log that ends where the stretch starts takes all of it over. -/
theorem entries_merge_of_eq_take {log source : Log} (hindexed : source.Indexed)
    {previous : Nat} {entries : List LogEntry} (hlog : log.entries = source.entries.take previous)
    (hprevious : previous ≤ source.entries.length)
    (hshipped : entries <+: source.entries.drop previous) :
    (log.merge previous entries).2.entries = source.entries.take (previous + entries.length) := by
  induction entries generalizing log previous with
  | nil => simpa [merge] using hlog
  | cons entry rest ih =>
    obtain ⟨hentry, hrest⟩ := shipped_cons hshipped
    have hlt : previous < source.entries.length := (List.getElem?_eq_some_iff.mp hentry).1
    have hnone : log.entries[previous]? = none := by
      rw [hlog, List.getElem?_eq_none]
      exact List.length_take_le _ _
    have hplaced : (log.place (previous + 1) entry.term entry.data).entries =
        source.entries.take (previous + 1) := by
      rw [place, termAt?_succ, hnone]
      simp only [Option.map_none]
      rw [written_eq hindexed hentry, hlog, List.take_add_one, hentry]
      rfl
    rw [merge, ih hplaced hlt hrest, List.length_cons]
    congr 1
    omega

/-- **What comes of a merge.**  A stretch of a matching log, placed behind a shared prefix, leaves a
log that has it already as it is, and any other log becomes the leader's up to the end of the
stretch. -/
theorem entries_merge {log source : Log} (hindexed : source.Indexed) (hmatch : log.Matches source)
    {previous : Nat} {entries : List LogEntry} (hlength : previous ≤ log.entries.length)
    (hshared : log.entries.take previous = source.entries.take previous)
    (hshipped : entries <+: source.entries.drop previous) :
    source.entries.take (previous + entries.length) <+: log.entries ∧
        (log.merge previous entries).2 = log ∨
      ¬ source.entries.take (previous + entries.length) <+: log.entries ∧
        (log.merge previous entries).2.entries =
          source.entries.take (previous + entries.length) := by
  induction entries generalizing previous with
  | nil =>
    left
    refine ⟨?_, rfl⟩
    rw [List.length_nil, Nat.add_zero, ← hshared]
    exact List.take_prefix _ _
  | cons entry rest ih =>
    obtain ⟨hentry, hrest⟩ := shipped_cons hshipped
    have hlt : previous < source.entries.length := (List.getElem?_eq_some_iff.mp hentry).1
    have hsum : previous + 1 + rest.length = previous + (entry :: rest).length := by
      simp only [List.length_cons]
      omega
    have hread : (source.entries.take (previous + (entry :: rest).length))[previous]? =
        some entry := by
      rw [List.getElem?_take_of_lt (by simp), hentry]
    -- after a conflict, or at the end of the log, the rest is taken over from the leader
    have htake : (log.place (previous + 1) entry.term entry.data).entries =
          source.entries.take (previous + 1) →
        (log.merge previous (entry :: rest)).2.entries =
          source.entries.take (previous + (entry :: rest).length) := by
      intro hplaced
      rw [merge, entries_merge_of_eq_take hindexed hplaced hlt hrest, hsum]
    cases hpresent : log.entries[previous]? with
    | none =>
      right
      have hend : log.entries.length ≤ previous := List.getElem?_eq_none_iff.mp hpresent
      constructor
      · intro hbegins
        have hget := getElem?_of_isPrefix hbegins hread
        rw [hpresent] at hget
        cases hget
      · apply htake
        rw [place, termAt?_succ, hpresent]
        simp only [Option.map_none]
        rw [written_eq hindexed hentry, List.take_add_one, hentry, ← hshared,
          List.take_of_length_le hend]
        rfl
    | some present =>
      by_cases hterm : present.term = entry.term
      · have hplaced : log.place (previous + 1) entry.term entry.data = log := by
          simp [place, termAt?_succ, hpresent, hterm]
        have hshared' : log.entries.take (previous + 1) = source.entries.take (previous + 1) :=
          hmatch previous present entry hpresent hentry hterm
        have hlength' : previous + 1 ≤ log.entries.length :=
          (List.getElem?_eq_some_iff.mp hpresent).1
        have hmerge : log.merge previous (entry :: rest) = log.merge (previous + 1) rest := by
          rw [merge, hplaced]
        rw [hmerge, ← hsum]
        exact ih hlength' hshared' hrest
      · right
        constructor
        · intro hbegins
          have hget := getElem?_of_isPrefix hbegins hread
          rw [hpresent] at hget
          exact hterm (congrArg (·.term) (Option.some.inj hget))
        · apply htake
          rw [place, termAt?_succ, hpresent]
          simp only [Option.map_some, if_neg hterm, Nat.add_sub_cancel]
          rw [written_eq hindexed hentry, List.take_add_one, hentry, ← hshared]
          rfl

/-- Once it is merged, the log agrees with its source up to the end of the stretch, and still matches it
beyond. -/
theorem Matches.merge {log source : Log} (h : log.Matches source) (hindexed : source.Indexed)
    {previous : Nat} {entries : List LogEntry} (hlength : previous ≤ log.entries.length)
    (hshared : log.entries.take previous = source.entries.take previous)
    (hshipped : entries <+: source.entries.drop previous)
    (hend : previous + entries.length ≤ source.entries.length) :
    (log.merge previous entries).2.Matches source ∧
      (log.merge previous entries).2.entries.take (previous + entries.length) =
        source.entries.take (previous + entries.length) := by
  rcases entries_merge hindexed h hlength hshared hshipped with ⟨hholds, hsame⟩ | ⟨-, htaken⟩
  · rw [hsame]
    have htake := List.prefix_iff_eq_take.mp hholds
    rw [List.length_take, Nat.min_eq_left hend] at htake
    exact ⟨h, htake.symm⟩
  · refine ⟨.of_eq_take htaken, ?_⟩
    rw [htaken, List.take_take, Nat.min_self]

end RaftReplica.Log
