import RaftReplica.Number.Word

/-!
# Clocks

Time is counted in nanoseconds. A clock that wakes sleepers only on whole milliseconds wakes each at
the first one that is not before its deadline.
-/

namespace RaftReplica.Clock

/-- The nanoseconds in a millisecond. -/
def millisecond : Nat := 10 ^ 6

/-- When a sleeper with this deadline wakes. -/
def wakeTime (deadline : Nat) : Nat := (deadline + (millisecond - 1)) / millisecond * millisecond

theorem le_wakeTime (deadline : Nat) : deadline ≤ wakeTime deadline := by
  simp only [wakeTime, millisecond]; omega

end RaftReplica.Clock
