import RaftReplica.Proofs.Number.Binary64
import RaftReplica.Time.Interval

/-!
# Rounding in scaled durations

A duration is scaled in two ways.  `Duration.scale?` goes through seconds and takes the nearest nanosecond;
`Interval.scaleBounds` multiplies nanoseconds and cuts the fraction off.  Each operation on floats on either
way moves a number by one part in 2^53 at most.

* `Duration.scale?_le` bounds the first from above, `Interval.le_scaleBounds_fst` the second from below.
* `Duration.scale?_le_scaleBounds` compares them: the first is not more than one nanosecond longer than the
  second, up to 2^49 nanoseconds, and then as much again for each further stretch of that length.
-/

namespace RaftReplica

open Binary64 Rounding

/-- What a factor between zero and one leaves of one is again such a factor, up to rounding. -/
theorem exists_holds_one_sub {factor : Float} (hpos : 0 < factor) (hle : factor ≤ 1) :
    ∃ g, Holds (1 - factor) g ∧ 0 ≤ g ∧ g ≤ 1 + 1 / 2 ^ 52 := by
  obtain ⟨f, hf, hfpos, hfle⟩ := holds_of_pos_of_le_one hpos hle
  obtain ⟨g, hg, hnear⟩ := holds_one.sub hf hfle (by norm_num)
  refine ⟨g, hg, hg.nonneg, ?_⟩
  have := hnear.le_add
  linarith

namespace Duration

variable {d scaled : Duration} {factor : Float} {g : ℚ}

theorem holds_toSeconds (d : Duration) :
    ∃ s, Holds d.toSeconds s ∧ s ≤ (1 + 1 / 2 ^ 53) ^ 3 * (d.nanoseconds / 10 ^ 9) + 1 / 10 ^ 29 := by
  have hrange := d.inRange
  have hparts : (d.nanoseconds : ℚ) / 10 ^ 9 = d.wholeSeconds + d.subsecondNanoseconds / 10 ^ 9 := by
    have hdiv := Nat.div_add_mod d.nanoseconds (10 ^ 9)
    rw [wholeSeconds, subsecondNanoseconds, div_eq_iff (by norm_num), add_mul, div_mul_cancel₀ _ (by norm_num)]
    exact_mod_cast (by omega)
  have hwhole : d.wholeSeconds < 2 ^ 64 := by
    rw [wholeSeconds]
    omega
  have hrest : d.subsecondNanoseconds < 10 ^ 9 := Nat.mod_lt _ (by decide)
  have hwhole' : (d.wholeSeconds : ℚ) < 2 ^ 64 := by exact_mod_cast hwhole
  have hrest' : (d.subsecondNanoseconds : ℚ) < 10 ^ 9 := by exact_mod_cast hrest
  have hrestNonneg : (0 : ℚ) ≤ d.subsecondNanoseconds := Nat.cast_nonneg _
  -- the nanoseconds behind the seconds go the longest way: they are rounded, divided, and added
  obtain ⟨s, hs, hsnear⟩ := holds_toFloat d.wholeSeconds.toUInt64
  obtain ⟨r, hr, hrnear⟩ := holds_toFloat d.subsecondNanoseconds.toUInt64
  rw [UInt64.toNat_ofNat_of_lt' hwhole] at hsnear
  rw [UInt64.toNat_ofNat_of_lt' (hrest.trans (by decide))] at hrnear
  have hsle := hsnear.le_add
  have hrle := hrnear.le_add
  obtain ⟨q, hq, hqnear⟩ := hr.div holds_billion (by norm_num) (by norm_num at hrle ⊢; linarith)
  have hqle := hqnear.le_add
  obtain ⟨t, ht, htnear⟩ := hs.add hq (by norm_num at hsle hrle hqle ⊢; linarith)
  have htle := htnear.le_add
  refine ⟨t, ht, ?_⟩
  rw [hparts]
  linarith

/-- Scaling by way of seconds makes a duration hardly longer than it should be. -/
theorem exists_scaled_le (d : Duration) (hg : Holds factor g) (hle : g ≤ 1 + 1 / 2 ^ 52) :
    ∃ n : ℕ, (n : ℚ) ≤ (1 + 1 / 2 ^ 53) ^ 4 * (g * d.nanoseconds) + 1 / 2 + 1 / 10 ^ 18 ∧
      d.scale? factor = if h : n < 2 ^ 64 * 10 ^ 9 then some ⟨n, h⟩ else none := by
  obtain ⟨s, hs, hsle⟩ := d.holds_toSeconds
  have hrange : (d.nanoseconds : ℚ) < 2 ^ 64 * 10 ^ 9 := by exact_mod_cast d.inRange
  have hproduct : g * s ≤ (1 + 1 / 2 ^ 52) * s := mul_le_mul_of_nonneg_right hle hs.nonneg
  obtain ⟨p, hp, hpnear⟩ := hg.mul hs (by norm_num at hsle hproduct ⊢; linarith)
  obtain ⟨n, hn, hnear⟩ := exists_scaledNearestEven?_eq hp (10 ^ 9)
  have hple := hpnear.le_add
  have hgs := mul_le_mul_of_nonneg_left hsle hg.nonneg
  have hnle := (abs_le.mp hnear).2
  push_cast at hnle
  refine ⟨n, by linarith, ?_⟩
  rw [scale?, ofSeconds?, if_neg hp.not_neg, hn]
  rfl

theorem scale?_le (hg : Holds factor g) (hle : g ≤ 1 + 1 / 2 ^ 52) (h : d.scale? factor = some scaled) :
    (scaled.nanoseconds : ℚ) ≤ (1 + 1 / 2 ^ 53) ^ 4 * (g * d.nanoseconds) + 1 / 2 + 1 / 10 ^ 18 := by
  obtain ⟨n, hn, hscale⟩ := d.exists_scaled_le hg hle
  rw [hscale] at h
  split at h
  · cases h
    exact hn
  · cases h

/-- A duration whose nanoseconds fit a word is not scaled beyond the longest duration. -/
theorem exists_scale?_eq (hword : d.nanoseconds ≤ wordMax) (hg : Holds factor g) (hle : g ≤ 1 + 1 / 2 ^ 52) :
    ∃ scaled, d.scale? factor = some scaled := by
  obtain ⟨n, hn, hscale⟩ := d.exists_scaled_le hg hle
  have hword' : (d.nanoseconds : ℚ) ≤ 2 ^ 64 := by exact_mod_cast hword.trans (Nat.sub_le _ 1)
  have hproduct : g * d.nanoseconds ≤ (1 + 1 / 2 ^ 52) * d.nanoseconds :=
    mul_le_mul_of_nonneg_right hle (Nat.cast_nonneg _)
  have hrange : (n : ℚ) < 2 ^ 64 * 10 ^ 9 := by linarith
  rw [dif_pos (by exact_mod_cast hrange)] at hscale
  exact ⟨_, hscale⟩

end Duration

namespace Interval

variable {n : ℕ} {factor : Float} {g : ℚ}

/-- Scaling nanoseconds makes them hardly fewer than they should be, but for the fraction. -/
theorem le_scaleBounds_fst (hn : n ≤ wordMax) (hg : Holds (1 - factor) g) (hle : g ≤ 1 + 1 / 2 ^ 52) :
    (scaleBounds n factor).1 = wordMax ∨
      (1 - 1 / 2 ^ 53) ^ 2 * (g * n) < (scaleBounds n factor).1 + 1 + 1 / 10 ^ 18 := by
  have hword : n < 2 ^ 64 := Nat.lt_of_le_of_lt hn (by decide)
  have hword' : (n : ℚ) < 2 ^ 64 := by exact_mod_cast hword
  obtain ⟨t, ht, htnear⟩ := holds_toFloat n.toUInt64
  rw [UInt64.toNat_ofNat_of_lt' hword] at htnear
  have htle := htnear.le_add
  have hproduct : t * g ≤ t * (1 + 1 / 2 ^ 52) := mul_le_mul_of_nonneg_left hle ht.nonneg
  obtain ⟨p, hp, hpnear⟩ := ht.mul hg (by norm_num at htle hproduct ⊢; linarith)
  refine (lt_floorWord_add_one hp).imp_right fun hlt => ?_
  have hple := hpnear.sub_le
  have htg := mul_le_mul_of_nonneg_right htnear.sub_le hg.nonneg
  simp only [scaleBounds]
  linarith

end Interval

/-- The two ways of scaling a duration come to nearly the same. -/
theorem Duration.scale?_le_scaleBounds {d scaled : Duration} {factor : Float} (hpos : 0 < factor)
    (hle : factor ≤ 1) (hword : d.nanoseconds ≤ wordMax) (h : d.scale? (1 - factor) = some scaled) :
    scaled.nanoseconds ≤ (Interval.scaleBounds d.nanoseconds factor).1 + 1 + d.nanoseconds / 2 ^ 49 := by
  obtain ⟨g, hg, hnonneg, hgle⟩ := exists_holds_one_sub hpos hle
  have hupper := scale?_le hg hgle h
  have hproduct : g * d.nanoseconds ≤ (1 + 1 / 2 ^ 52) * d.nanoseconds :=
    mul_le_mul_of_nonneg_right hgle (Nat.cast_nonneg _)
  -- four roundings up, two down and that of the factor make up less than seven parts
  have hclose : (scaled.nanoseconds : ℚ) <
      (Interval.scaleBounds d.nanoseconds factor).1 + 3 / 2 + 7 / 2 ^ 53 * d.nanoseconds + 1 / 10 ^ 17 := by
    rcases Interval.le_scaleBounds_fst hword hg hgle with hlargest | hlower
    · have hword' : (d.nanoseconds : ℚ) ≤ wordMax := by exact_mod_cast hword
      rw [hlargest]
      linarith
    · linarith
  have hstretch : (d.nanoseconds : ℚ) < 2 ^ 49 * ((d.nanoseconds / 2 ^ 49 : ℕ) + 1) := by
    exact_mod_cast Nat.lt_mul_div_succ d.nanoseconds (by decide)
  by_contra hlong
  have hlong' : (((Interval.scaleBounds d.nanoseconds factor).1 + 1 + d.nanoseconds / 2 ^ 49 + 1 : ℕ) : ℚ) ≤
      scaled.nanoseconds := by exact_mod_cast Nat.not_le.mp hlong
  simp only [Nat.cast_add, Nat.cast_one] at hlong'
  have hstretches : (0 : ℚ) ≤ (d.nanoseconds / 2 ^ 49 : ℕ) := Nat.cast_nonneg _
  linarith

end RaftReplica
