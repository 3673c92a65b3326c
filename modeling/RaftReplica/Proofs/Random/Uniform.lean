import Mathlib
import RaftReplica.Random.Uniform

/-!
# Fair draws of whole numbers

The words that are multiplied up to one result stand in a row. The acceptance zone cuts all these rows to one
length, so that no result is more likely than another.

* `accept?_eq_some_iff`: the product of an accepted word with the range, and
  `accept?_eq_some_iff_row`: the row of words that give a result. `first_add_stretch_le` says that all of them
  are words.
* `Sampled` is the draw as a loop that ends with the first word accepted, however many are refused before.
  `draw_cases` compares it with the draw that refuses no more words than it is allowed.
-/

namespace RaftReplica.Uniform

variable {range result : ℕ} {word : UInt64}

/-! ## The words of a result -/

/-- How many words give the same result. -/
def stretch (range : ℕ) : ℕ := 2 ^ (63 - range.log2)

/-- The first word that gives a result. -/
def first (range result : ℕ) : ℕ := (result * 2 ^ 64) ⌈/⌉ range

/-- At least every other word has a result. -/
theorem le_mul_stretch (hpos : 0 < range) : 2 ^ 63 ≤ range * stretch range := by
  calc 2 ^ 63 ≤ 2 ^ (range.log2 + (63 - range.log2)) := Nat.pow_le_pow_right two_pos (by omega)
    _ = 2 ^ range.log2 * stretch range := pow_add ..
    _ ≤ range * stretch range := Nat.mul_le_mul_right _ (Nat.log2_self_le hpos.ne')

theorem mul_stretch_lt (hpos : 0 < range) (hword : range < 2 ^ 64) : range * stretch range < 2 ^ 64 := by
  have hlog : range.log2 < 64 := (Nat.log2_lt hpos.ne').mpr hword
  calc range * stretch range < 2 ^ (range.log2 + 1) * stretch range :=
        Nat.mul_lt_mul_of_pos_right Nat.lt_log2_self (Nat.two_pow_pos _)
    _ = 2 ^ (range.log2 + 1 + (63 - range.log2)) := (pow_add ..).symm
    _ = 2 ^ 64 := by
      congr 1
      omega

theorem zone_add_one (hpos : 0 < range) : zone range + 1 = range * stretch range :=
  Nat.sub_add_cancel (Nat.mul_pos hpos (Nat.two_pow_pos _))

/-- The product of an accepted word with the range exceeds its result by what the zone allows. -/
theorem accept?_eq_some_iff (hpos : 0 < range) (hword : range < 2 ^ 64) :
    accept? range word = some result ↔
      result * 2 ^ 64 ≤ word.toNat * range ∧ word.toNat * range < result * 2 ^ 64 + range * stretch range := by
  have hzone := zone_add_one hpos
  have hlt := mul_stretch_lt hpos hword
  have hdivide := Nat.div_add_mod (word.toNat * range) (2 ^ 64)
  have hrest := Nat.mod_lt (word.toNat * range) (Nat.two_pow_pos 64)
  simp only [accept?]
  constructor
  · intro h
    split at h
    · cases h
      omega
    · cases h
  · rintro ⟨hlower, hupper⟩
    have hresult : word.toNat * range / 2 ^ 64 = result := by omega
    have hlow : word.toNat * range % 2 ^ 64 ≤ zone range := by omega
    rw [if_pos hlow, hresult]

/-- Words from the first one of a result on are those whose product with the range is large enough. -/
theorem first_le_iff (hpos : 0 < range) {n : ℕ} : first range result ≤ n ↔ result * 2 ^ 64 ≤ n * range := by
  rw [first, ceilDiv_le_iff_le_mul hpos, Nat.mul_comm n]

/-- The word after the row of a result is the first one whose product is too large. -/
theorem first_add_stretch_le_iff (hpos : 0 < range) {n : ℕ} :
    first range result + stretch range ≤ n ↔ result * 2 ^ 64 + range * stretch range ≤ n * range := by
  by_cases hstretch : stretch range ≤ n
  · obtain ⟨rest, rfl⟩ := Nat.exists_eq_add_of_le' hstretch
    rw [Nat.add_le_add_iff_right, first_le_iff hpos, Nat.add_mul, Nat.mul_comm range, Nat.add_le_add_iff_right]
  · refine iff_of_false (fun h => hstretch ((Nat.le_add_left ..).trans h)) fun h => hstretch ?_
    refine Nat.le_of_mul_le_mul_left ?_ hpos
    rw [Nat.mul_comm range n]
    exact (Nat.le_add_left ..).trans h

/-- A result is that of a row of words, as long for one result as for another. -/
theorem accept?_eq_some_iff_row (hpos : 0 < range) (hword : range < 2 ^ 64) :
    accept? range word = some result ↔
      first range result ≤ word.toNat ∧ word.toNat < first range result + stretch range := by
  rw [accept?_eq_some_iff hpos hword, first_le_iff hpos, ← not_le, ← not_le, first_add_stretch_le_iff hpos]

/-- No row goes beyond the largest word. -/
theorem first_add_stretch_le (hword : range < 2 ^ 64) (hresult : result < range) :
    first range result + stretch range ≤ 2 ^ 64 := by
  have hpos : 0 < range := Nat.zero_lt_of_lt hresult
  rw [first_add_stretch_le_iff hpos]
  calc result * 2 ^ 64 + range * stretch range ≤ result * 2 ^ 64 + 2 ^ 64 :=
        Nat.add_le_add_left (mul_stretch_lt hpos hword).le _
    _ = (result + 1) * 2 ^ 64 := (Nat.succ_mul ..).symm
    _ ≤ range * 2 ^ 64 := Nat.mul_le_mul_right _ hresult
    _ = 2 ^ 64 * range := Nat.mul_comm ..

/-! ## Drawing until a word is accepted -/

variable {σ : Type} [WordSource σ] {source last : σ} {refused : ℕ}

/-- The source gives so many words that are refused, and then one that is accepted with the result. -/
inductive Sampled (range : ℕ) : ℕ → σ → ℕ → σ → Prop
  | accepted {source : σ} {result : ℕ} (h : accept? range (WordSource.next source).1 = some result) :
    Sampled range 0 source result (WordSource.next source).2
  | refused {count : ℕ} {source last : σ} {result : ℕ} (h : accept? range (WordSource.next source).1 = none)
    (rest : Sampled range count (WordSource.next source).2 result last) :
    Sampled range (count + 1) source result last

/-- No word leads out of the range, however late it comes. -/
theorem Sampled.lt (h : Sampled range refused source result last) (hpos : 0 < range) : result < range := by
  induction h with
  | accepted h => exact accept?_lt hpos h
  | refused _ _ ih => exact ih

/-- A draw that may refuse so many words ends as the loop does, or the loop refuses as many. -/
theorem drawWithin_cases (range refusals : ℕ) (source : σ) :
    (∃ refused < refusals, Sampled range refused source (drawWithin refusals range source).1
      (drawWithin refusals range source).2) ∨
    (∀ {refused result : ℕ} {last : σ}, Sampled range refused source result last → refusals ≤ refused) ∧
      (drawWithin refusals range source).1 = 0 := by
  induction refusals generalizing source with
  | zero => exact .inr ⟨fun _ => Nat.zero_le _, rfl⟩
  | succ refusals ih =>
    cases haccept : accept? range (WordSource.next source).1 with
    | some result =>
      have hdraw : drawWithin (refusals + 1) range source = (result, (WordSource.next source).2) := by
        rw [drawWithin]
        dsimp only
        rw [haccept]
      rw [hdraw]
      exact .inl ⟨0, Nat.succ_pos refusals, .accepted haccept⟩
    | none =>
      have hdraw : drawWithin (refusals + 1) range source =
          drawWithin refusals range (WordSource.next source).2 := by
        rw [drawWithin]
        dsimp only
        rw [haccept]
      rw [hdraw]
      obtain ⟨refused, hrefused, hsampled⟩ | ⟨hlong, hzero⟩ := ih (WordSource.next source).2
      · exact .inl ⟨refused + 1, Nat.succ_lt_succ hrefused, .refused haccept hsampled⟩
      · refine .inr ⟨fun hsampled => ?_, hzero⟩
        cases hsampled with
        | accepted h => cases haccept.symm.trans h
        | refused _ rest => exact Nat.succ_le_succ (hlong rest)

theorem draw_cases (range : ℕ) (source : σ) :
    (∃ refused < WordSource.maxRefusals, Sampled range refused source (draw range source).1
      (draw range source).2) ∨
    (∀ {refused result : ℕ} {last : σ}, Sampled range refused source result last →
      WordSource.maxRefusals ≤ refused) ∧ (draw range source).1 = 0 :=
  drawWithin_cases range WordSource.maxRefusals source

end RaftReplica.Uniform
