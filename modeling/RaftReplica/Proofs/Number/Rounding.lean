import Mathlib
import RaftReplica.Number.Word

/-!
# Rounding to binary floating point

Every operation on floats takes the exact result as a mantissa with an exponent, cuts the mantissa to 53 bits
and rounds it to the nearest.  Two bits behind the mantissa keep what has to be known of what is cut off.

* `Stands` says which number such a mantissa is cut from; `Stands.shiftRight` cuts off more bits, and
  `Stands.abs_roundedMantissa_sub_le` rounds to the nearest.
* `Canonical` is what the bits of a float can hold.
* `Near` is what rounding does to a number: it moves it by half a unit in the last of 53 places at most, or by
  half the least positive float.
* `roundWithAccuracy_value` and `round_spec` put this together. A number with few enough bits is left as it is,
  `round_exact`, and a whole number stays one, `round_whole`.
-/

namespace RaftReplica.Rounding

open Float.Model Float.Model.UnpackedFloat

/-- What a mantissa and the bit behind it are worth. -/
def worth (em : ExtendedMantissa) : ℚ := em.mantissa + if em.roundBit then 1 / 2 else 0

/-- The number that a mantissa is cut from.  The last bit is set if there is anything behind the first. -/
def Stands (em : ExtendedMantissa) (x : ℚ) : Prop :=
  if em.stickyBit then worth em < x ∧ x < worth em + 1 / 2 else x = worth em

/-- The mantissas and exponents of positive floats. -/
structure Canonical (m : ℕ) (e : ℤ) : Prop where
  lt : m < 2 ^ 53
  exponent_ge : -1074 ≤ e
  full : 2 ^ 52 ≤ m ∨ e = -1074

/-- The unpacked float is a number from zero up to infinity. -/
inductive Value : UnpackedFloat → ℚ → Prop where
  | zero : Value (.zero .positive) 0
  | finite {m : ℕ} {e : ℤ} (pos : 0 < m) (canonical : Canonical m e) :
    Value (.finite .positive m e pos) (m * 2 ^ e)

/-- The exponent that leaves 53 bits of a mantissa, or the least one. -/
def target (m : ℕ) (e : ℤ) : ℤ := max (m.log2 + e - 52) (-1074)

/-- The first number is close enough to come from rounding the second. -/
def Near (rounded x : ℚ) : Prop := |rounded - x| ≤ x * 2 ^ (-53 : ℤ) + 2 ^ (-1075 : ℤ)

variable {em : ExtendedMantissa} {x : ℚ} {m : ℕ} {e : ℤ} {accuracy : Accuracy}

/-- Mantissas and exponents are ordered as the numbers are. -/
theorem Canonical.lt_of_compare {m₁ m₂ : ℕ} {e₁ e₂ : ℤ} (h₁ : Canonical m₁ e₁) (h₂ : Canonical m₂ e₂)
    (h : (compare e₁ e₂).then (compare m₁ m₂) = .lt) : (m₁ : ℚ) * 2 ^ e₁ < m₂ * 2 ^ e₂ := by
  rw [Ordering.then_eq_lt, Int.compare_eq_lt, Int.compare_eq_eq, Nat.compare_eq_lt] at h
  rcases h with he | ⟨rfl, hm⟩
  · have hfull : (2 ^ 52 : ℚ) ≤ m₂ := by
      have := h₁.exponent_ge
      exact_mod_cast h₂.full.resolve_right (by omega)
    have hlt : (m₁ : ℚ) < 2 ^ 53 := by exact_mod_cast h₁.lt
    have hpow : (2 : ℚ) ^ (e₁ + 1) ≤ 2 ^ e₂ := zpow_le_zpow_right₀ one_le_two (by omega)
    calc (m₁ : ℚ) * 2 ^ e₁ < 2 ^ 53 * 2 ^ e₁ := mul_lt_mul_of_pos_right hlt (zpow_pos two_pos _)
      _ = 2 ^ 52 * 2 ^ (e₁ + 1) := by
        rw [zpow_add_one₀ two_ne_zero]
        ring
      _ ≤ m₂ * 2 ^ e₂ := mul_le_mul hfull hpow (by positivity) (by positivity)
  · exact mul_lt_mul_of_pos_right (by exact_mod_cast hm) (zpow_pos two_pos _)

/-! ## Cutting and rounding a mantissa -/

theorem Stands.bounds (h : Stands em x) : em.mantissa ≤ x ∧ x < em.mantissa + 1 := by
  obtain ⟨m, round, sticky⟩ := em
  cases round <;> cases sticky <;> (simp [Stands, worth] at h; exact ⟨by linarith, by linarith⟩)

/-- The bit that is cut off a mantissa is what the bit behind the new one is worth. -/
theorem worth_shiftRightOne (em : ExtendedMantissa) : worth em.shiftRightOne = em.mantissa / 2 := by
  have hdiv : (em.mantissa : ℚ) = 2 * (em.mantissa / 2 : ℕ) + (em.mantissa % 2 : ℕ) := by
    exact_mod_cast (Nat.div_add_mod em.mantissa 2).symm
  rw [worth, ExtendedMantissa.shiftRightOne, hdiv]
  rcases Nat.mod_two_eq_zero_or_one em.mantissa with hmod | hmod
  · simp [hmod]
  · simp [hmod]
    ring

theorem Stands.shiftRightOne (h : Stands em x) : Stands em.shiftRightOne (x / 2) := by
  rw [Stands, worth_shiftRightOne]
  obtain ⟨m, round, sticky⟩ := em
  cases round <;> cases sticky <;> simp [Stands, worth, ExtendedMantissa.shiftRightOne] at h ⊢ <;>
    first | linarith | constructor <;> linarith

theorem Stands.shiftRight (h : Stands em x) (count : ℕ) : Stands (em >>> count) (x / 2 ^ count) := by
  change Stands (count.repeat ExtendedMantissa.shiftRightOne em) _
  induction count with
  | zero => simpa [Nat.repeat] using h
  | succ count ih =>
    rw [Nat.repeat, pow_succ, ← div_div]
    exact ih.shiftRightOne

theorem Stands.abs_roundedMantissa_sub_le (h : Stands em x) : |em.roundedMantissa - x| ≤ 1 / 2 := by
  obtain ⟨m, round, sticky⟩ := em
  have hmod : (m % 2 : ℕ) ≤ (1 : ℚ) := by exact_mod_cast Nat.le_of_lt_succ (Nat.mod_lt m two_pos)
  have hnonneg : (0 : ℚ) ≤ (m % 2 : ℕ) := Nat.cast_nonneg _
  rw [abs_le]
  cases round <;> cases sticky <;>
    simp [Stands, worth, ExtendedMantissa.roundedMantissa, ExtendedMantissa.accuracy,
      Accuracy.roundToNearestEven] at h ⊢ <;> constructor <;> linarith

theorem stands_exact (m : ℕ) : Stands (.ofMantissaAndAccuracy m .exact) m := by
  simp [Stands, worth, ExtendedMantissa.ofMantissaAndAccuracy]

theorem mantissa_ofMantissaAndAccuracy (m : ℕ) (accuracy : Accuracy) :
    (ExtendedMantissa.ofMantissaAndAccuracy m accuracy).mantissa = m := by
  fun_cases ExtendedMantissa.ofMantissaAndAccuracy <;> rfl

/-! ## How far rounding moves a number -/

theorem near_self (h : 0 ≤ x) : Near x x := by
  rw [Near, sub_self, abs_zero]
  positivity

theorem near_zero : Near 0 0 := near_self le_rfl

/-- Half the least positive float is next to nothing. -/
theorem half_least_le : (2 : ℚ) ^ (-1075 : ℤ) ≤ 1 / 10 ^ 30 :=
  calc (2 : ℚ) ^ (-1075 : ℤ) ≤ 2 ^ (-100 : ℤ) := zpow_le_zpow_right₀ one_le_two (by decide)
    _ ≤ 1 / 10 ^ 30 := by norm_num

theorem Near.le_add {rounded : ℚ} (h : Near rounded x) : rounded ≤ (1 + 1 / 2 ^ 53) * x + 1 / 10 ^ 30 := by
  have hupper := (abs_le.mp h).2
  have hunit : (2 : ℚ) ^ (-53 : ℤ) = 1 / 2 ^ 53 := by norm_num
  rw [hunit] at hupper
  linarith [half_least_le]

theorem Near.le_of_le {rounded : ℚ} (h : Near rounded x) (hx : x ≤ 2 ^ 100) : rounded ≤ 2 ^ 200 := by
  have := h.le_add
  norm_num at this hx ⊢
  linarith

theorem Near.sub_le {rounded : ℚ} (h : Near rounded x) : (1 - 1 / 2 ^ 53) * x - 1 / 10 ^ 30 ≤ rounded := by
  have hlower := (abs_le.mp h).1
  have hunit : (2 : ℚ) ^ (-53 : ℤ) = 1 / 2 ^ 53 := by norm_num
  rw [hunit] at hlower
  linarith [half_least_le]

/-! ## Rounding to 53 bits -/

theorem targetExponent_eq (m : ℕ) (e : ℤ) :
    Format.binary64.targetExponent (totalExponent m e) = target m e := by
  simp only [Format.targetExponent, totalExponent, Format.mantissaBits, Format.minExponent, target]
  omega

/-- A mantissa with all bits that are kept needs no lower exponent, nor does one with the least exponent. -/
theorem le_target (h : 2 ^ 52 ≤ m ∨ e ≤ -1074) : e ≤ target m e := by
  rw [target]
  rcases h with hfull | hleast
  · have := (Nat.le_log2 (by omega)).mpr hfull
    omega
  · omega

theorem shiftToTargetExponent_eq (h : e ≤ target m e) :
    shiftToTargetExponent Format.binary64 m e accuracy =
      (ExtendedMantissa.ofMantissaAndAccuracy m accuracy >>> (target m e - e).toNat, target m e) := by
  rw [shiftToTargetExponent, targetExponent_eq, shiftToExponent, Int.toNat_of_nonneg (by omega)]
  simp

/-- A rounded mantissa as a float: the bit that rounding up may have carried is shifted back. -/
def carry (r : ℕ) (e : ℤ) : UnpackedFloat :=
  let (final, e) := shiftToTargetExponent Format.binary64 r e .exact
  if h : final.mantissa = 0 then .zero .positive
  else .finite .positive final.mantissa e (Nat.pos_of_ne_zero h)

theorem log2_le_of_lt {m k : ℕ} (h : m < 2 ^ (k + 1)) : m.log2 ≤ k := by
  rcases Nat.eq_zero_or_pos m with rfl | hm
  · exact Nat.zero_le k
  · exact Nat.le_of_lt_succ ((Nat.log2_lt hm.ne').mpr h)

theorem value_carry {r : ℕ} (hr : r ≤ 2 ^ 53) (he : -1074 ≤ e) (hfull : 2 ^ 52 ≤ r ∨ e = -1074) :
    Value (carry r e) (r * 2 ^ e) := by
  rcases hr.lt_or_eq with hlt | rfl
  · have htarget : target r e ≤ e := by
      have := log2_le_of_lt hlt
      rw [target]
      omega
    have hcarry : carry r e = if h : r = 0 then .zero .positive
        else .finite .positive r e (Nat.pos_of_ne_zero h) := by
      rw [carry, shiftToTargetExponent, targetExponent_eq, shiftToExponent,
        Int.toNat_of_nonpos (by omega)]
      simp [HShiftRight.hShiftRight, Nat.repeat, ExtendedMantissa.ofMantissaAndAccuracy]
    rw [hcarry]
    split
    · next h => rw [h, Nat.cast_zero, zero_mul]; exact .zero
    · exact .finite _ ⟨hlt, he, hfull⟩
  · have htarget : target (2 ^ 53) e = e + 1 := by
      rw [target, Nat.log2_two_pow]
      omega
    have hcarry : carry (2 ^ 53) e = .finite .positive (2 ^ 52) (e + 1) (by decide) := by
      rw [carry, shiftToTargetExponent_eq (by omega), htarget, add_sub_cancel_left]
      rfl
    have hvalue : ((2 ^ 53 : ℕ) : ℚ) * 2 ^ e = (2 ^ 52 : ℕ) * 2 ^ (e + 1) := by
      rw [zpow_add_one₀ two_ne_zero]
      push_cast
      ring
    rw [hcarry, hvalue]
    exact .finite _ ⟨by decide, by omega, .inl (Nat.le_refl _)⟩

/-- What is left of a number after the first cut has 53 bits, the first of them set unless the exponent is the
least one. -/
theorem Stands.cut_bounds (hx : Stands (.ofMantissaAndAccuracy m accuracy) x) (he : e ≤ target m e) :
    0 ≤ x / 2 ^ (target m e - e).toNat ∧ x / 2 ^ (target m e - e).toNat < 2 ^ 53 ∧
      (2 ^ 52 ≤ x / 2 ^ (target m e - e).toNat ∨ target m e = -1074) := by
  obtain ⟨hlower, hupper⟩ := hx.bounds
  rw [mantissa_ofMantissaAndAccuracy] at hlower hupper
  generalize hk : (target m e - e).toNat = k
  rw [target] at he hk ⊢
  refine ⟨div_nonneg ((Nat.cast_nonneg m).trans hlower) (by positivity), ?_, ?_⟩
  · have hpow : m + 1 ≤ 2 ^ (53 + k) :=
      Nat.le_trans Nat.lt_log2_self (Nat.pow_le_pow_right two_pos (by omega))
    rw [div_lt_iff₀ (by positivity), ← pow_add]
    exact hupper.trans_le (by exact_mod_cast hpow)
  · by_cases hleast : max ((m.log2 : ℤ) + e - 52) (-1074) = -1074
    · exact .inr hleast
    · have hlog : m.log2 = 52 + k := by omega
      have hpos : m ≠ 0 := by
        rintro rfl
        rw [Nat.log2_zero] at hlog
        omega
      have hpow : 2 ^ (52 + k) ≤ m := hlog ▸ Nat.log2_self_le hpos
      refine .inl ?_
      rw [le_div_iff₀ (by positivity), ← pow_add]
      exact le_trans (by exact_mod_cast hpow) hlower

/-- Half a unit in the last place is little against a number with 53 bits. -/
theorem half_unit_le {y : ℚ} {t : ℤ} (hy : 0 ≤ y) (hfull : 2 ^ 52 ≤ y ∨ t = -1074) :
    1 / 2 * 2 ^ t ≤ y * 2 ^ t * 2 ^ (-53 : ℤ) + 2 ^ (-1075 : ℤ) := by
  have hpos : (0 : ℚ) < 2 ^ t := zpow_pos two_pos t
  have hleast : (0 : ℚ) < 2 ^ (-1075 : ℤ) := zpow_pos two_pos _
  have hunit : (2 : ℚ) ^ (-53 : ℤ) = 1 / 2 / 2 ^ 52 := by norm_num
  rcases hfull with hfull | rfl
  · have hmul := mul_le_mul_of_nonneg_right hfull hpos.le
    rw [hunit]
    linarith
  · have hhalf : (1 / 2 : ℚ) * 2 ^ (-1074 : ℤ) = 2 ^ (-1075 : ℤ) := by
      rw [one_div, ← zpow_neg_one, ← zpow_add₀ two_ne_zero]
      rfl
    rw [hhalf]
    exact le_add_of_nonneg_left (by positivity)

/-- A mantissa with at least the bits that are kept is rounded to one with those bits, near the number it is cut
from. -/
theorem roundWithAccuracy_value (hx : Stands (.ofMantissaAndAccuracy m accuracy) x)
    (he : e ≤ target m e) :
    ∃ r : ℕ, Value (roundWithAccuracy Format.binary64 .positive m e accuracy) (r * 2 ^ target m e) ∧
      Near (r * 2 ^ target m e) (x * 2 ^ e) := by
  obtain ⟨hnonneg, hlt, hfull⟩ := hx.cut_bounds he
  have hround := (hx.shiftRight (target m e - e).toNat).abs_roundedMantissa_sub_le
  have hresult : roundWithAccuracy Format.binary64 .positive m e accuracy =
      carry (ExtendedMantissa.ofMantissaAndAccuracy m accuracy >>>
        (target m e - e).toNat).roundedMantissa (target m e) := by
    rw [roundWithAccuracy, shiftToTargetExponent_eq he]
    rfl
  have hscale : x * 2 ^ e = x / 2 ^ (target m e - e).toNat * 2 ^ target m e := by
    have hexponent : (2 : ℚ) ^ target m e = 2 ^ (target m e - e).toNat * 2 ^ e := by
      rw [← zpow_natCast, ← zpow_add₀ two_ne_zero, Int.toNat_of_nonneg (by omega), sub_add_cancel]
    rw [hexponent]
    field_simp
  rw [hresult, hscale]
  have hleast : -1074 ≤ target m e := le_max_right _ _
  generalize (ExtendedMantissa.ofMantissaAndAccuracy m accuracy >>>
    (target m e - e).toNat).roundedMantissa = r at hround ⊢
  generalize x / 2 ^ (target m e - e).toNat = y at hnonneg hlt hfull hround ⊢
  generalize target m e = t at hfull hleast ⊢
  obtain ⟨hdown, hup⟩ := abs_le.mp hround
  have hr : r ≤ 2 ^ 53 := by
    by_contra hgt
    have hcast : ((2 ^ 53 + 1 : ℕ) : ℚ) ≤ r := by exact_mod_cast Nat.not_le.mp hgt
    push_cast at hcast
    linarith
  have hr' : 2 ^ 52 ≤ r ∨ t = -1074 := by
    refine hfull.imp_left fun hy => ?_
    by_contra hlow
    have hcast : (r : ℚ) + 1 ≤ ((2 ^ 52 : ℕ) : ℚ) := by exact_mod_cast Nat.not_le.mp hlow
    push_cast at hcast
    linarith
  refine ⟨r, value_carry hr hleast hr', ?_⟩
  have hpos : (0 : ℚ) < 2 ^ t := zpow_pos two_pos t
  calc |(r : ℚ) * 2 ^ t - y * 2 ^ t| = |r - y| * 2 ^ t := by rw [← sub_mul, abs_mul, abs_of_pos hpos]
    _ ≤ 1 / 2 * 2 ^ t := mul_le_mul_of_nonneg_right hround hpos.le
    _ ≤ y * 2 ^ t * 2 ^ (-53 : ℤ) + 2 ^ (-1075 : ℤ) := half_unit_le hnonneg hfull

theorem roundWithAccuracy_spec (hx : Stands (.ofMantissaAndAccuracy m accuracy) x)
    (he : e ≤ target m e) :
    ∃ rounded, Value (roundWithAccuracy Format.binary64 .positive m e accuracy) rounded ∧
      Near rounded (x * 2 ^ e) := by
  obtain ⟨r, hvalue, hnear⟩ := roundWithAccuracy_value hx he
  exact ⟨_, hvalue, hnear⟩

/-! ## Numbers of any size -/

theorem decreaseExponent_value (m : ℕ) (e t : ℤ) :
    ((decreaseExponent m e t).1 : ℚ) * 2 ^ (decreaseExponent m e t).2 = m * 2 ^ e := by
  rw [decreaseExponent, Nat.shiftLeft_eq, Nat.cast_mul, Nat.cast_pow, Nat.cast_two, mul_assoc,
    ← zpow_natCast, ← zpow_add₀ two_ne_zero]
  congr 2
  omega

/-- A mantissa is brought to a lower exponent without loss. -/
theorem decreaseExponent_fst_mul (m : ℕ) {e t : ℤ} (h : t ≤ e) :
    ((decreaseExponent m e t).1 : ℚ) * 2 ^ t = m * 2 ^ e := by
  have hexponent : (decreaseExponent m e t).2 = t := by
    simp only [decreaseExponent]
    omega
  rw [← decreaseExponent_value m e t, hexponent]

theorem log2_shiftLeft {m : ℕ} (hm : m ≠ 0) (count : ℕ) : (m <<< count).log2 = m.log2 + count := by
  induction count with
  | zero => rw [Nat.shiftLeft_zero, Nat.add_zero]
  | succ count ih =>
    have hne : m <<< count ≠ 0 := by
      rw [Nat.shiftLeft_eq]
      positivity
    rw [Nat.shiftLeft_succ, Nat.log2_two_mul hne, ih, Nat.add_assoc]

/-- Lowering the exponent of a mantissa does not change which exponent leaves 53 bits of it. -/
theorem target_decreaseExponent (hm : 0 < m) (e t : ℤ) :
    target (decreaseExponent m e t).1 (decreaseExponent m e t).2 = target m e := by
  simp only [decreaseExponent, target, log2_shiftLeft hm.ne']
  omega

theorem round_spec (hm : 0 < m) (e : ℤ) :
    ∃ rounded, Value (UnpackedFloat.round Format.binary64 .positive m e) rounded ∧
      Near rounded (m * 2 ^ e) := by
  have htarget := target_decreaseExponent hm e (target m e)
  have hle : (decreaseExponent m e (target m e)).2 ≤ target m e := by
    simp only [decreaseExponent]
    omega
  have hround := roundWithAccuracy_spec (stands_exact (decreaseExponent m e (target m e)).1)
    (hle.trans_eq htarget.symm)
  rw [decreaseExponent_value] at hround
  rw [UnpackedFloat.round, targetExponent_eq]
  exact hround

/-- A mantissa with at most the bits that are kept is not changed. -/
theorem round_exact (hm : 0 < m) (he : target m e ≤ e) :
    Value (UnpackedFloat.round Format.binary64 .positive m e) (m * 2 ^ e) := by
  have htarget := target_decreaseExponent hm e (target m e)
  have hexponent : (decreaseExponent m e (target m e)).2 = target m e := by
    simp only [decreaseExponent]
    omega
  have hvalue := decreaseExponent_fst_mul m he
  have hround : UnpackedFloat.round Format.binary64 .positive m e =
      roundWithAccuracy Format.binary64 .positive (decreaseExponent m e (target m e)).1 (target m e) .exact := by
    rw [UnpackedFloat.round, targetExponent_eq]
    dsimp only
    rw [hexponent]
  rw [hexponent] at htarget
  have hbounds := (stands_exact (decreaseExponent m e (target m e)).1).cut_bounds htarget.ge
  rw [hround, ← hvalue]
  have hleast : -1074 ≤ target m e := le_max_right _ _
  generalize (decreaseExponent m e (target m e)).1 = k at htarget hbounds ⊢
  generalize target m e = t at htarget hbounds hleast ⊢
  rw [htarget, sub_self, Int.toNat_zero, pow_zero, div_one] at hbounds
  have hresult : roundWithAccuracy Format.binary64 .positive k t .exact = carry k t := by
    rw [roundWithAccuracy, shiftToTargetExponent_eq htarget.ge, htarget, sub_self]
    rfl
  rw [hresult]
  refine value_carry ?_ hleast ?_
  · exact_mod_cast hbounds.2.1.le
  · exact hbounds.2.2.imp_left fun h => by exact_mod_cast h

/-- A whole number is rounded to a whole number. -/
theorem round_whole {n : ℕ} (hn : 0 < n) :
    ∃ r : ℕ, Value (UnpackedFloat.round Format.binary64 .positive n 0) r ∧ Near r n := by
  rcases le_or_gt (target n 0) 0 with hkeep | hcut
  · have hvalue := round_exact hn hkeep
    rw [zpow_zero, mul_one] at hvalue
    exact ⟨n, hvalue, near_self (Nat.cast_nonneg n)⟩
  · have hsame : decreaseExponent n 0 (target n 0) = (n, 0) := by
      rw [decreaseExponent, Int.toNat_of_nonpos (by omega)]
      rfl
    have hround : UnpackedFloat.round Format.binary64 .positive n 0 =
        roundWithAccuracy Format.binary64 .positive n 0 .exact := by
      rw [UnpackedFloat.round, targetExponent_eq, hsame]
    obtain ⟨r, hvalue, hnear⟩ := roundWithAccuracy_value (stands_exact n) hcut.le
    have hwhole : (r : ℚ) * 2 ^ target n 0 = (r * 2 ^ (target n 0).toNat : ℕ) := by
      rw [Nat.cast_mul, Nat.cast_pow, Nat.cast_two, ← zpow_natCast, Int.toNat_of_nonneg hcut.le]
    rw [hwhole] at hvalue hnear
    rw [zpow_zero, mul_one] at hnear
    exact ⟨_, hround ▸ hvalue, hnear⟩

/-- A whole number times a power of two that is not negative is rounded to a float near it. -/
theorem normalize_spec {k : ℤ} (hk : 0 ≤ k) (e : ℤ) :
    ∃ rounded, Value (UnpackedFloat.normalize Format.binary64 k e .positive) rounded ∧
      Near rounded (k * 2 ^ e) := by
  rcases hk.eq_or_lt with rfl | hpos
  · refine ⟨0, .zero, ?_⟩
    rw [Int.cast_zero, zero_mul]
    exact near_zero
  · have hround := round_spec (Int.pos_iff_toNat_pos.mp hpos) e
    have hcast : ((k.toNat : ℕ) : ℚ) = k := by exact_mod_cast Int.toNat_of_nonneg hk
    rw [hcast] at hround
    rw [UnpackedFloat.normalize, Int.compare_eq_gt.mpr hpos]
    exact hround

end RaftReplica.Rounding
