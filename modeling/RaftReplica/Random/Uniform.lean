import RaftReplica.Number.Word
import RaftReplica.Random.WordSource

/-!
# Uniform whole numbers

A number below `range` is drawn by widening multiplication: the product of a 64-bit word and the
range has the result in its upper half, and words whose lower half passes the acceptance zone are
refused, so that every result is equally likely. Main statement: a draw below a positive range stays
below it.
-/

namespace RaftReplica.Uniform

/-- The largest lower half that is accepted for a range below 2^64. -/
def zone (range : Nat) : Nat := range * 2 ^ (63 - range.log2) - 1

/-- The result that a word gives, if it is accepted. -/
def accept? (range : Nat) (word : UInt64) : Option Nat :=
  let product := word.toNat * range
  if product % 2 ^ 64 ≤ zone range then some (product / 2 ^ 64) else none

/-- Draws a number below `range`, refusing at most that many words. After those it is the lowest. -/
def drawWithin {σ : Type} [WordSource σ] : Nat → Nat → σ → Nat × σ
  | 0, _, source => (0, source)
  | refusals + 1, range, source =>
    let (word, source) := WordSource.next source
    match accept? range word with
    | some result => (result, source)
    | none => drawWithin refusals range source

/-- Draws a number below `range`. -/
def draw {σ : Type} [WordSource σ] (range : Nat) (source : σ) : Nat × σ :=
  drawWithin WordSource.maxRefusals range source

theorem accept?_lt {range : Nat} {word : UInt64} {result : Nat} (hrange : 0 < range)
    (h : accept? range word = some result) : result < range := by
  simp only [accept?] at h
  split at h
  · simp only [Option.some.injEq] at h
    subst h
    have hword : word.toNat < 2 ^ 64 := word.toNat_lt
    rw [Nat.div_lt_iff_lt_mul (by decide), Nat.mul_comm range]
    exact Nat.mul_lt_mul_of_pos_right hword hrange
  · simp at h

theorem drawWithin_lt {σ : Type} [WordSource σ] {range : Nat} (hrange : 0 < range)
    (refusals : Nat) (source : σ) : (drawWithin refusals range source).1 < range := by
  induction refusals generalizing source with
  | zero => exact hrange
  | succ refusals ih =>
    simp only [drawWithin]
    split
    · next h => exact accept?_lt hrange h
    · exact ih _

theorem draw_lt {σ : Type} [WordSource σ] {range : Nat} (hrange : 0 < range) (source : σ) :
    (draw range source).1 < range :=
  drawWithin_lt hrange WordSource.maxRefusals source

end RaftReplica.Uniform
