import RaftReplica.Number.Word
import RaftReplica.Proofs.Log.Merge

/-!
# The log in words

The running definitions count in natural numbers, which have no end and below zero stay at zero.  A
machine counts in words.  Here the operations of the log are put once more as computations on words that
find a fault where a number leaves its word or a place lies outside of its list, and shown to do what the
running definitions do, without a fault, as long as a word counts the entries.

* `Fault` is what may go wrong, and `Checked` a computation in which it does or does not.
* `Checked.add`, `Checked.sub` and `Checked.dropFrom` find the faults of numbers and places.
* `checkedAppend_eq`, `checkedMerge_eq` and their kin say that an operation of the log has none.
-/

namespace RaftReplica

/-- What must not happen while an event is handled. -/
inductive Fault where
  /-- A number would exceed the largest of its type. -/
  | overflow
  /-- A number would fall below zero. -/
  | underflow
  /-- A stretch would begin behind the end of its list. -/
  | outOfBounds
  /-- A leader has no view of its peers. -/
  | noProgress
  /-- A candidate has no election. -/
  | noElection
  /-- The log does not reach an index that is committed. -/
  | noEntry
  /-- The log does not reach the index that peers wait for. -/
  | beyondLog
deriving DecidableEq, Repr

/-- A computation that finds a fault or has a result. -/
abbrev Checked (α : Type) := Except Fault α

namespace Checked

def add (largest n m : Nat) : Checked Nat :=
  if n + m ≤ largest then .ok (n + m) else .error .overflow

def sub (n m : Nat) : Checked Nat :=
  if m ≤ n then .ok (n - m) else .error .underflow

/-- The list from a place on. -/
def dropFrom {α : Type} (l : List α) (start : Nat) : Checked (List α) :=
  if start ≤ l.length then .ok (l.drop start) else .error .outOfBounds

variable {largest n m : Nat}

theorem add_eq (h : n + m ≤ largest) : add largest n m = .ok (n + m) := if_pos h

theorem add_overflow (h : largest < n + m) : add largest n m = .error .overflow :=
  if_neg (Nat.not_le.mpr h)

theorem sub_eq (h : m ≤ n) : sub n m = .ok (n - m) := if_pos h

theorem dropFrom_eq {α : Type} {l : List α} (h : n ≤ l.length) : dropFrom l n = .ok (l.drop n) :=
  if_pos h

@[simp] theorem ok_bind {α β : Type} (a : α) (next : α → Checked β) : (.ok a >>= next) = next a := rfl

@[simp] theorem pure_eq {α : Type} (a : α) : (pure a : Checked α) = .ok a := rfl

end Checked

namespace Log

open Checked (add sub dropFrom)

def checkedGet? (log : Log) (index : Nat) : Checked (Option LogEntry) := do
  if index = 0 then return none
  let place ← sub index 1
  return log.entries[place]?

def checkedTermAt? (log : Log) (index : Nat) : Checked (Option Nat) := do
  if index = 0 then return some 0
  let entry? ← log.checkedGet? index
  return entry?.map (·.term)

def checkedAppend (log : Log) (term : Nat) (data : Bytes) : Checked (Nat × Log) := do
  let index ← add wordMax log.lastIndex 1
  return (index, ⟨log.entries ++ [⟨index, term, data⟩]⟩)

def checkedEntriesFrom (log : Log) (index max : Nat) : Checked (List LogEntry) := do
  if index = 0 ∨ log.lastIndex < index then return []
  let start ← sub index 1
  let shipped ← dropFrom log.entries start
  return shipped.take max

def checkedMerge (log : Log) (index : Nat) : List LogEntry → Checked (Nat × Log)
  | [] => return (index, log)
  | entry :: rest => do
    let index ← add wordMax index 1
    let placed : LogEntry := ⟨index, entry.term, entry.data⟩
    match ← log.checkedTermAt? index with
    | none => checkedMerge ⟨log.entries ++ [placed]⟩ index rest
    | some term =>
      if term = entry.term then checkedMerge log index rest
      else
        let kept ← sub index 1
        checkedMerge ⟨log.entries.take kept ++ [placed]⟩ index rest

variable (log : Log)

theorem checkedGet?_eq (index : Nat) : log.checkedGet? index = .ok (log.get? index) := by
  unfold checkedGet? get?
  by_cases hzero : index = 0
  · rw [if_pos hzero, if_pos hzero]
    rfl
  · rw [if_neg hzero, if_neg hzero, Checked.sub_eq (by omega)]
    rfl

theorem checkedTermAt?_eq (index : Nat) : log.checkedTermAt? index = .ok (log.termAt? index) := by
  unfold checkedTermAt? termAt?
  rw [checkedGet?_eq]
  split <;> rfl

theorem checkedAppend_eq (term : Nat) (data : Bytes) (h : log.lastIndex < wordMax) :
    log.checkedAppend term data = .ok (log.append term data) := by
  unfold checkedAppend
  rw [Checked.add_eq h]
  rfl

theorem checkedEntriesFrom_eq (index max : Nat) :
    log.checkedEntriesFrom index max = .ok (log.entriesFrom index max) := by
  unfold checkedEntriesFrom entriesFrom
  by_cases hzero : index = 0
  · rw [if_pos (Or.inl hzero), if_pos hzero]
    rfl
  · by_cases hbeyond : log.lastIndex < index
    · have hnone : log.entries.drop (index - 1) = [] := List.drop_eq_nil_of_le (Nat.le_sub_one_of_lt hbeyond)
      rw [if_pos (Or.inr hbeyond), if_neg hzero, hnone, List.take_nil]
      rfl
    · have hstart : index - 1 ≤ log.entries.length := by
        unfold lastIndex at hbeyond
        omega
      rw [if_neg (not_or.mpr ⟨hzero, hbeyond⟩), if_neg hzero, Checked.sub_eq (by omega)]
      simp only [Checked.pure_eq, Checked.ok_bind, Checked.dropFrom_eq hstart]

theorem checkedMerge_eq (previous : Nat) (entries : List LogEntry)
    (h : previous + entries.length ≤ wordMax) :
    log.checkedMerge previous entries = .ok (log.merge previous entries) := by
  induction entries generalizing log previous with
  | nil => rfl
  | cons entry rest ih =>
    rw [List.length_cons] at h
    have hrest : previous + 1 + rest.length ≤ wordMax := by omega
    rw [checkedMerge, Checked.add_eq (by omega), Checked.ok_bind, checkedTermAt?_eq, Checked.ok_bind,
      merge, place]
    cases log.termAt? (previous + 1) with
    | none => exact ih _ _ hrest
    | some term =>
      by_cases hsame : term = entry.term
      · simp only [if_pos hsame]
        exact ih _ _ hrest
      · simp only [if_neg hsame, Checked.sub_eq (Nat.le_add_left 1 previous), Checked.ok_bind]
        exact ih _ _ hrest

end Log

end RaftReplica
