/-!
# Sixty-four bit numbers

Terms, log indexes and counters are natural numbers. The numbers that travel between replicas fit a
64-bit word, and the few places where a replica counts past such a number say what happens at the
largest word: `saturatingSucc` stays there, `succ?` refuses.
-/

-- Powers of naturals are those of the core library, also where another instance is at hand.
attribute [instance (high), default_instance (high + 1)] instPowNat

namespace RaftReplica

/-- The largest number that a 64-bit word holds. -/
def wordMax : Nat := 2 ^ 64 - 1

/-- The number after `n`, or the largest word once that is reached. -/
def saturatingSucc (n : Nat) : Nat := min (n + 1) wordMax

/-- The number after `n`, if a word still holds it. -/
def succ? (n : Nat) : Option Nat :=
  if n < wordMax then some (n + 1) else none

theorem saturatingSucc_of_lt {n : Nat} (h : n < wordMax) : saturatingSucc n = n + 1 := by
  simp only [saturatingSucc]; omega

theorem saturatingSucc_le (n : Nat) : saturatingSucc n ≤ n + 1 := by
  simp only [saturatingSucc]; omega

end RaftReplica
