import RaftReplica.Message

/-!
# The replicated log

Indexes start at one; index zero is the empty log that all replicas share, with term zero. A leader
appends; a follower merges what its leader ships, and gives up entries of its own only from the first
one whose term differs.
-/

namespace RaftReplica

/-- The entries of a log, the first at index one. -/
structure Log where
  entries : List LogEntry
deriving DecidableEq, Repr

namespace Log

def empty : Log := ⟨[]⟩

instance : Inhabited Log := ⟨empty⟩

def lastIndex (log : Log) : Nat := log.entries.length

/-- The term of the last entry, and zero for an empty log. -/
def lastTerm (log : Log) : Nat :=
  match log.entries.getLast? with
  | some entry => entry.term
  | none => 0

def get? (log : Log) (index : Nat) : Option LogEntry :=
  if index = 0 then none else log.entries[index - 1]?

/-- The term at an index that the log reaches, zero at index zero. -/
def termAt? (log : Log) (index : Nat) : Option Nat :=
  if index = 0 then some 0 else (log.get? index).map (·.term)

/-- Adds an entry behind the last one and gives its index. -/
def append (log : Log) (term : Nat) (data : Bytes) : Nat × Log :=
  let index := log.lastIndex + 1
  (index, ⟨log.entries ++ [⟨index, term, data⟩]⟩)

/-- Up to `max` entries from an index on; none from index zero. -/
def entriesFrom (log : Log) (index max : Nat) : List LogEntry :=
  if index = 0 then [] else (log.entries.drop (index - 1)).take max

/-- Whether a log that ends in `lastTerm` at `lastIndex` is at least as up to date: the later last
term decides, and with equal ones the longer log. -/
def coveredBy (log : Log) (lastTerm lastIndex : Nat) : Bool :=
  if lastTerm ≠ log.lastTerm then log.lastTerm < lastTerm else log.lastIndex ≤ lastIndex

/-- Puts an entry at `index`, where it replaces an entry of another term and all behind that, and
changes nothing if there is one of its term. -/
def place (log : Log) (index term : Nat) (data : Bytes) : Log :=
  match log.termAt? index with
  | some present =>
    if present = term then log
    else ⟨log.entries.take (index - 1) ++ [⟨index, term, data⟩]⟩
  | none => ⟨log.entries ++ [⟨index, term, data⟩]⟩

/-- Places entries one by one behind `previous` and gives the index of the last. -/
def merge (log : Log) (previous : Nat) : List LogEntry → Nat × Log
  | [] => (previous, log)
  | entry :: rest => merge (log.place (previous + 1) entry.term entry.data) (previous + 1) rest

/-! ## What the operations do to the entries -/

@[simp] theorem lastIndex_empty : empty.lastIndex = 0 := rfl

@[simp] theorem termAt?_zero (log : Log) : log.termAt? 0 = some 0 := rfl

@[simp] theorem entriesFrom_zero (log : Log) (max : Nat) : log.entriesFrom 0 max = [] := rfl

theorem get?_succ (log : Log) (index : Nat) : log.get? (index + 1) = log.entries[index]? := rfl

@[simp] theorem append_fst (log : Log) (term : Nat) (data : Bytes) :
    (log.append term data).1 = log.lastIndex + 1 := rfl

@[simp] theorem lastIndex_append (log : Log) (term : Nat) (data : Bytes) :
    (log.append term data).2.lastIndex = log.lastIndex + 1 := by
  simp [append, lastIndex]

theorem get?_append_last (log : Log) (term : Nat) (data : Bytes) :
    (log.append term data).2.get? (log.lastIndex + 1) = some ⟨log.lastIndex + 1, term, data⟩ := by
  simp [append, get?, lastIndex]

theorem length_entriesFrom_le (log : Log) (index max : Nat) :
    (log.entriesFrom index max).length ≤ max := by
  unfold entriesFrom
  split
  · simp
  · exact List.length_take_le _ _

theorem merge_fst (log : Log) (previous : Nat) (entries : List LogEntry) :
    (log.merge previous entries).1 = previous + entries.length := by
  induction entries generalizing log previous with
  | nil => rfl
  | cons entry rest ih =>
    rw [merge, ih, List.length_cons]
    omega

end Log

end RaftReplica
