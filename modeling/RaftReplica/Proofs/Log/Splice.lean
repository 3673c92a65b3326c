import RaftReplica.Proofs.Log.Merge

/-!
# Where merged entries come to stand

Merging compares what it is given with the log entry by entry, by their terms alone.  As long as the terms
agree it leaves the log as it is, with whatever stands behind the entries.  From the first entry on that the
log lacks or has of another term, the log is cut off and everything that was given comes to stand instead.
So the log is given up only where there is a conflict, and it takes nothing but what the leader ships.

* `agreed` is how many of the entries the log has, and `written` the entries as they come to stand.
* `entries_merge_of_length` is the merge at the end of a log, and `merge_of_agreed` the one that changes
  nothing.
* `entries_merge_of_conflict` is the log after a conflict, and `agreed_merge` says that there is none any
  more.
-/

namespace RaftReplica.Log

/-- How many of the entries a log has behind an index, up to the first one that it lacks or has of another
term. -/
def agreed (log : Log) (previous : Nat) : List LogEntry → Nat
  | [] => 0
  | entry :: rest =>
    if log.termAt? (previous + 1) = some entry.term then agreed log (previous + 1) rest + 1 else 0

/-- Entries as they come to stand behind an index, with their terms and data under indexes of their own. -/
def written (previous : Nat) (entries : List LogEntry) : List LogEntry :=
  entries.mapIdx fun k entry => ⟨previous + 1 + k, entry.term, entry.data⟩

theorem written_cons (previous : Nat) (entry : LogEntry) (rest : List LogEntry) :
    written previous (entry :: rest) =
      ⟨previous + 1, entry.term, entry.data⟩ :: written (previous + 1) rest := by
  simp only [written, List.mapIdx_cons, Nat.add_assoc, Nat.add_comm 1]

variable {log : Log} {previous : Nat} {entry : LogEntry}

/-! ## What a log has of the entries -/

theorem agreed_cons_of_eq {rest : List LogEntry} (h : log.termAt? (previous + 1) = some entry.term) :
    log.agreed previous (entry :: rest) = log.agreed (previous + 1) rest + 1 := if_pos h

theorem agreed_cons_of_ne {rest : List LogEntry} (h : log.termAt? (previous + 1) ≠ some entry.term) :
    log.agreed previous (entry :: rest) = 0 := if_neg h

theorem agreed_le_length (log : Log) (previous : Nat) (entries : List LogEntry) :
    log.agreed previous entries ≤ entries.length := by
  induction entries generalizing previous with
  | nil => exact Nat.le_refl 0
  | cons entry rest ih =>
    by_cases hsame : log.termAt? (previous + 1) = some entry.term
    · rw [agreed_cons_of_eq hsame]
      exact Nat.succ_le_succ (ih (previous + 1))
    · rw [agreed_cons_of_ne hsame]
      exact Nat.zero_le _

/-- The entries in front of the first conflict are in the log. -/
theorem termAt?_of_lt_agreed {entries : List LogEntry} {k : Nat} (hk : k < log.agreed previous entries)
    (hentry : entries[k]? = some entry) : log.termAt? (previous + 1 + k) = some entry.term := by
  induction entries generalizing previous k with
  | nil => cases hentry
  | cons first rest ih =>
    by_cases hsame : log.termAt? (previous + 1) = some first.term
    · cases k with
      | zero =>
        obtain rfl : first = entry := Option.some.inj hentry
        exact hsame
      | succ k =>
        rw [agreed_cons_of_eq hsame] at hk
        have hrest := ih (Nat.lt_of_succ_lt_succ hk) hentry
        rwa [Nat.add_right_comm] at hrest
    · rw [agreed_cons_of_ne hsame] at hk
      cases hk

/-- The log has no entry of the same term where the first conflict is. -/
theorem termAt?_agreed_ne {entries : List LogEntry}
    (hentry : entries[log.agreed previous entries]? = some entry) :
    log.termAt? (previous + 1 + log.agreed previous entries) ≠ some entry.term := by
  induction entries generalizing previous with
  | nil => cases hentry
  | cons first rest ih =>
    by_cases hsame : log.termAt? (previous + 1) = some first.term
    · rw [agreed_cons_of_eq hsame] at hentry ⊢
      have hrest := ih hentry
      rwa [Nat.add_right_comm] at hrest
    · rw [agreed_cons_of_ne hsame] at hentry ⊢
      obtain rfl : first = entry := Option.some.inj hentry
      exact hsame

/-! ## What placing does -/

theorem place_of_eq {term : Nat} (data : Bytes) (h : log.termAt? (previous + 1) = some term) :
    log.place (previous + 1) term data = log := by
  simp only [place, h, if_true]

/-- An entry that is not there yet comes to stand right behind the index before it. -/
theorem entries_place_of_ne {term : Nat} (data : Bytes)
    (h : log.termAt? (previous + 1) ≠ some term) :
    (log.place (previous + 1) term data).entries =
      log.entries.take previous ++ [⟨previous + 1, term, data⟩] := by
  unfold place
  cases hpresent : log.termAt? (previous + 1) with
  | none =>
    have hend : log.entries.length ≤ previous := by
      rw [termAt?_succ, Option.map_eq_none_iff] at hpresent
      exact List.getElem?_eq_none_iff.mp hpresent
    simp only [List.take_of_length_le hend]
  | some present =>
    have hterm : present ≠ term := fun heq => h (heq ▸ hpresent)
    simp only [if_neg hterm, Nat.add_sub_cancel]

/-- Once it is placed, an entry of its term is there. -/
theorem termAt?_place (hprevious : previous ≤ log.entries.length) (term : Nat) (data : Bytes) :
    (log.place (previous + 1) term data).termAt? (previous + 1) = some term := by
  by_cases hsame : log.termAt? (previous + 1) = some term
  · rwa [place_of_eq data hsame]
  · have hfront : (log.entries.take previous).length = previous := by
      rw [List.length_take, Nat.min_eq_left hprevious]
    rw [termAt?_succ, entries_place_of_ne data hsame,
      List.getElem?_append_right (Nat.le_of_eq hfront), hfront, Nat.sub_self]
    rfl

/-! ## What merging does -/

/-- A log to the end of which entries are merged takes all of them. -/
theorem entries_merge_of_length {entries : List LogEntry} (hlength : log.entries.length = previous) :
    (log.merge previous entries).2.entries = log.entries ++ written previous entries := by
  induction entries generalizing log previous with
  | nil => exact (List.append_nil _).symm
  | cons entry rest ih =>
    have hnone : log.termAt? (previous + 1) ≠ some entry.term := by
      rw [termAt?_succ, List.getElem?_eq_none (Nat.le_of_eq hlength)]
      nofun
    have hplaced := entries_place_of_ne entry.data hnone
    rw [List.take_of_length_le (Nat.le_of_eq hlength)] at hplaced
    have hend : (log.place (previous + 1) entry.term entry.data).entries.length = previous + 1 := by
      rw [hplaced, List.length_append, hlength, List.length_singleton]
    rw [merge, ih hend, hplaced, written_cons, List.append_assoc, List.singleton_append]

/-- A log that has all the entries stays as it is, and keeps what stands behind them. -/
theorem merge_of_agreed {entries : List LogEntry}
    (h : log.agreed previous entries = entries.length) : (log.merge previous entries).2 = log := by
  induction entries generalizing previous with
  | nil => rfl
  | cons entry rest ih =>
    by_cases hsame : log.termAt? (previous + 1) = some entry.term
    · rw [agreed_cons_of_eq hsame, List.length_cons] at h
      rw [merge, place_of_eq entry.data hsame, ih (Nat.succ.inj h)]
    · rw [agreed_cons_of_ne hsame] at h
      cases h

/-- From the first conflict on the entries take the place of the log. -/
theorem entries_merge_of_conflict {entries : List LogEntry} (hprevious : previous ≤ log.entries.length)
    (h : log.agreed previous entries < entries.length) :
    (log.merge previous entries).2.entries =
      log.entries.take (previous + log.agreed previous entries) ++
        written (previous + log.agreed previous entries)
          (entries.drop (log.agreed previous entries)) := by
  induction entries generalizing previous with
  | nil => cases h
  | cons entry rest ih =>
    by_cases hsame : log.termAt? (previous + 1) = some entry.term
    · rw [agreed_cons_of_eq hsame, List.length_cons] at h
      have hrest := ih (le_length_of_termAt? hsame) (Nat.lt_of_succ_lt_succ h)
      rw [merge, place_of_eq entry.data hsame, hrest, agreed_cons_of_eq hsame, List.drop_succ_cons,
        Nat.add_right_comm, Nat.add_assoc]
    · -- here the log is cut off, and the rest is merged to its end
      have hplaced := entries_place_of_ne entry.data hsame
      have hend : (log.place (previous + 1) entry.term entry.data).entries.length = previous + 1 := by
        rw [hplaced, List.length_append, List.length_take, Nat.min_eq_left hprevious,
          List.length_singleton]
      rw [agreed_cons_of_ne hsame, Nat.add_zero, List.drop_zero, merge, entries_merge_of_length hend,
        hplaced, written_cons, List.append_assoc, List.singleton_append]

/-- Once it is merged with them, a log has all the entries. -/
theorem agreed_merge (hprevious : previous ≤ log.entries.length) (entries : List LogEntry) :
    (log.merge previous entries).2.agreed previous entries = entries.length := by
  induction entries generalizing log previous with
  | nil => rfl
  | cons entry rest ih =>
    have hplaced := lt_length_place hprevious entry.term entry.data
    have hterm : (log.merge previous (entry :: rest)).2.termAt? (previous + 1) = some entry.term := by
      rw [merge, termAt?_eq_of_take (take_merge hplaced rest), termAt?_place hprevious]
    rw [agreed_cons_of_eq hterm, merge, ih hplaced, List.length_cons]

/-- **What a merge does.**  Let `k` be the place of the first entry that the log lacks, or has of another
term; all entries in front of it are there.  If there is no such entry, the log stays as it is.  Otherwise
it keeps what stands in front of that place, and the entries from there on take the place of all the
rest.  Either way the log reaches over all entries and has their terms, and to merge them once more changes
nothing. -/
theorem merge_splices {previous : Nat} (hprevious : previous ≤ log.lastIndex)
    (entries : List LogEntry) :
    let k := log.agreed previous entries
    let last := (log.merge previous entries).1
    let merged := (log.merge previous entries).2
    (k ≤ entries.length ∧
      (∀ j < k, ∀ entry, entries[j]? = some entry →
        ∃ present, log.get? (previous + 1 + j) = some present ∧ present.term = entry.term) ∧
      ∀ entry, entries[k]? = some entry →
        ∀ present, log.get? (previous + 1 + k) = some present → present.term ≠ entry.term) ∧
    (k = entries.length → merged = log) ∧
    (k < entries.length → merged.entries = log.entries.take (previous + k) ++
      (entries.drop k).mapIdx fun j entry => ⟨previous + k + 1 + j, entry.term, entry.data⟩) ∧
    last = previous + entries.length ∧
    previous + entries.length ≤ merged.lastIndex ∧
    (∀ j entry, entries[j]? = some entry → merged.termAt? (previous + 1 + j) = some entry.term) ∧
    merged.merge previous entries = (last, merged) := by
  have hterm : ∀ j, log.termAt? (previous + 1 + j) =
      (log.get? (previous + 1 + j)).map (·.term) := by
    intro j
    rw [termAt?, if_neg (by omega)]
  have hagreed := agreed_merge hprevious entries
  refine ⟨⟨log.agreed_le_length previous entries, ?_, ?_⟩, merge_of_agreed,
    entries_merge_of_conflict hprevious, log.merge_fst previous entries,
    le_length_merge hprevious entries, ?_, ?_⟩
  · intro j hj entry hentry
    have hthere := termAt?_of_lt_agreed hj hentry
    rwa [hterm, Option.map_eq_some_iff] at hthere
  · intro entry hentry present hpresent heq
    refine termAt?_agreed_ne hentry ?_
    rw [hterm, hpresent, Option.map_some, heq]
  · intro j entry hentry
    refine termAt?_of_lt_agreed ?_ hentry
    rw [hagreed]
    exact (List.getElem?_eq_some_iff.mp hentry).1
  · refine Prod.ext ?_ (merge_of_agreed hagreed)
    rw [merge_fst, merge_fst]

/-- A log of two terms, with an entry at its end that its leader does not know. -/
def forked : Log := ⟨[⟨1, 1, [1]⟩, ⟨2, 1, [2]⟩, ⟨3, 2, [3]⟩, ⟨4, 2, [4]⟩, ⟨5, 2, [5]⟩]⟩

/-- The leader ships the second entry once more and two of a later term. -/
def reshipped : List LogEntry := [⟨2, 1, [2]⟩, ⟨3, 3, [6]⟩, ⟨4, 3, [7]⟩]

/-- The second entry stays, and the two new ones take the place of the last three. -/
theorem merge_splices_forked :
    1 ≤ forked.lastIndex ∧ forked.agreed 1 reshipped = 1 ∧
      (forked.merge 1 reshipped).2.entries =
        [⟨1, 1, [1]⟩, ⟨2, 1, [2]⟩, ⟨3, 3, [6]⟩, ⟨4, 3, [7]⟩] ∧
      (forked.merge 1 reshipped).1 = 4 ∧
      (forked.merge 1 reshipped).2.merge 1 reshipped = forked.merge 1 reshipped := by
  obtain ⟨-, -, hconflict, hlast, -, -, hagain⟩ :=
    merge_splices (show 1 ≤ forked.lastIndex by decide) reshipped
  exact ⟨by decide, by decide, hconflict (by decide), hlast, hagain⟩

end RaftReplica.Log
