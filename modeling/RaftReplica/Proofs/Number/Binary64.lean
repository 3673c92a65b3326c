import RaftReplica.Number.Binary64
import RaftReplica.Proofs.Number.Rounding

/-!
# Floats as numbers

A float that is neither negative nor infinite holds a number. Sums, differences, products and quotients of
such floats hold what comes of rounding the exact result, which `Rounding.Near` says is close to it, and the
whole numbers that are read off a float are those next to the number that it holds.

* `unpack_pack`: what rounding leaves fits the bits of a float.
* `Holds.add`, `Holds.sub`, `Holds.mul`, `Holds.div`, `holds_toFloat`: the operations.
* `floorWord_eq`, `exists_scaledNearestEven?_eq` and `nearestWord_pos_iff`: rounding to whole numbers.

No number here comes near the largest float: bounds far below it are asked for where one could.
-/

namespace RaftReplica.Binary64

open Float.Model Float.Model.UnpackedFloat Rounding

/-- The float is a number from zero up to infinity. -/
def Holds (x : Float) (a : ℚ) : Prop := Value x.toModel.unpack a

/-! ## Bits -/

theorem toNat_unpackMantissa (bits : BitVec Format.binary64.numBits) :
    (unpackMantissa bits).toNat = bits.toNat % 2 ^ 52 := by
  simp [unpackMantissa]

theorem toNat_unpackExponent (bits : BitVec Format.binary64.numBits) :
    (unpackExponent bits).toNat = bits.toNat / 2 ^ 52 % 2 ^ 11 := by
  simp [unpackExponent, Nat.shiftRight_eq_div_pow]

theorem toNat_implicit (mantissa : BitVec 52) : (1#1 ++ mantissa).toNat = mantissa.toNat + 2 ^ 52 := by
  rw [BitVec.toNat_append, ← Nat.shiftLeft_add_eq_or_of_lt mantissa.isLt, Nat.add_comm]
  rfl

theorem ofNat_ne {w n : ℕ} {b : BitVec w} (hn : n < 2 ^ w) (hne : n ≠ b.toNat) : BitVec.ofNat w n ≠ b := by
  rintro rfl
  exact hne (by rw [BitVec.toNat_ofNat, Nat.mod_eq_of_lt hn])

/-- The bits of a float hold a mantissa and an exponent. -/
theorem canonical_of_unpack {bits : BitVec Format.binary64.numBits} {sign : Sign} {m : ℕ} {e : ℤ}
    {pos : 0 < m} (h : UnpackedFloat.unpack Format.binary64 bits = .finite sign m e pos) : Canonical m e := by
  have hmantissa : (unpackMantissa bits).toNat < 2 ^ 52 := (unpackMantissa bits).isLt
  have himplicit := toNat_implicit (unpackMantissa bits)
  simp only [UnpackedFloat.unpack, Format.exponentBias] at h
  split at h
  · split at h <;> cases h
  · split at h
    · next hzero =>
      split at h
      · cases h
      · cases h
        rw [hzero]
        exact ⟨by omega, by simp, .inr (by simp)⟩
    · next hzero =>
      cases h
      have hpos : (unpackExponent bits).toNat ≠ 0 := fun heq => hzero (BitVec.eq_of_toNat_eq heq)
      exact ⟨by omega, by simp; omega, .inl (by omega)⟩

/-- What fits the bits is read back from them. -/
theorem unpack_pack {m : ℕ} {e : ℤ} (pos : 0 < m) (h : Canonical m e) (he : e ≤ 971) :
    UnpackedFloat.unpack Format.binary64 (UnpackedFloat.pack Format.binary64 (.finite .positive m e pos)) =
      .finite .positive m e pos := by
  obtain ⟨hlt, hge, hfull⟩ := h
  obtain ⟨biased, hbiased⟩ : ∃ biased : ℕ, (biased : ℤ) = e + 1075 :=
    ⟨(e + 1075).toNat, Int.toNat_of_nonneg (by omega)⟩
  have hexponent : (e + Format.binary64.exponentBias + Format.binary64.mantissaBitsWithoutImplicit).toNat =
      biased := by
    simp only [Format.exponentBias]
    omega
  have hinfinity : ¬2 ^ Format.binary64.exponentBits ≤ biased + 1 := by
    simp only
    omega
  have hlog : m.log2 + 1 = Format.binary64.mantissaBits ↔ 2 ^ 52 ≤ m := by
    rw [Format.mantissaBits, Nat.add_comm, Nat.add_left_cancel_iff, Nat.log2_eq_iff pos.ne']
    exact and_iff_left hlt
  rw [UnpackedFloat.pack]
  simp only [hexponent, if_neg hinfinity, hlog]
  -- a full mantissa is written without its first bit, a lower one under the exponent zero
  split
  · next hnormal =>
    have hvalue : (BitVec.ofNat 11 biased).toNat = biased := by
      rw [BitVec.toNat_ofNat, Nat.mod_eq_of_lt (by omega)]
    have hones : BitVec.ofNat 11 biased ≠ -1#11 :=
      ofNat_ne (by omega) (by change biased ≠ 2047; omega)
    have hzero : BitVec.ofNat 11 biased ≠ 0#11 := ofNat_ne (by omega) (by change biased ≠ 0; omega)
    have hmantissa : (1#1 ++ BitVec.ofNat 52 m).toNat = m := by
      rw [toNat_implicit, BitVec.toNat_ofNat]
      omega
    simp only [UnpackedFloat.unpack, unpackExponent_packComponents, unpackMantissa_packComponents,
      unpackSign_packComponents, Sign.ofBitVec_toBitVec, if_neg hones, if_neg hzero, hmantissa, hvalue,
      Format.exponentBias, UnpackedFloat.finite.injEq, true_and]
    omega
  · next hlow =>
    have hmantissa : (BitVec.ofNat 52 m).toNat = m := by
      rw [BitVec.toNat_ofNat, Nat.mod_eq_of_lt (by omega)]
    have hne : BitVec.ofNat 52 m ≠ 0#52 := ofNat_ne (by omega) pos.ne'
    have hones : (0#11 : BitVec 11) ≠ -1#11 := by decide
    simp only [UnpackedFloat.unpack, unpackExponent_packComponents, unpackMantissa_packComponents,
      unpackSign_packComponents, Sign.ofBitVec_toBitVec, if_neg hones, if_true, dif_neg hne, hmantissa,
      Format.exponentBias, UnpackedFloat.finite.injEq, true_and]
    simp only [BitVec.toNat_zero]
    omega

/-- Below a bound that leaves much room, exponents fit the bits. -/
theorem exponent_le_of_le {m : ℕ} {e : ℤ} (h : Canonical m e) (hbound : (m : ℚ) * 2 ^ e ≤ 2 ^ 200) :
    e ≤ 971 := by
  by_contra hlarge
  have hm : (2 ^ 52 : ℚ) ≤ m := by
    exact_mod_cast h.full.resolve_right (by omega)
  have he : (2 : ℚ) ^ (200 : ℤ) ≤ 2 ^ e := zpow_le_zpow_right₀ one_le_two (by omega)
  have hproduct : (2 ^ 52 : ℚ) * 2 ^ (200 : ℤ) ≤ m * 2 ^ e :=
    mul_le_mul hm he (by positivity) (by positivity)
  norm_num at hproduct hbound
  linarith

theorem holds_ofModel_pack {u : UnpackedFloat} {a : ℚ} (h : Value u a) (ha : a ≤ 2 ^ 200) :
    Holds (.ofModel (.pack u)) a := by
  have hunpack : (Float.Model.pack u).unpack = u := by
    cases h with
    | zero => rfl
    | finite pos canonical => exact unpack_pack pos canonical (exponent_le_of_le canonical ha)
  rw [Holds, hunpack]
  exact h

/-! ## Operations -/

theorem Value.nonneg {u : UnpackedFloat} {a : ℚ} (h : Value u a) : 0 ≤ a := by
  cases h <;> positivity

theorem Value.mul {u v : UnpackedFloat} {a b : ℚ} (hu : Value u a) (hv : Value v b) :
    ∃ c, Value (UnpackedFloat.mul Format.binary64 u v) c ∧ Near c (a * b) := by
  cases hu with
  | zero =>
    rw [zero_mul]
    cases hv <;> exact ⟨0, .zero, near_zero⟩
  | @finite m₁ e₁ pos₁ canonical₁ =>
    cases hv with
    | zero =>
      rw [mul_zero]
      exact ⟨0, .zero, near_zero⟩
    | @finite m₂ e₂ pos₂ canonical₂ =>
      have hvalue : (m₁ * 2 ^ e₁ * (m₂ * 2 ^ e₂) : ℚ) = (m₁ * m₂ : ℕ) * 2 ^ (e₁ + e₂) := by
        rw [zpow_add₀ two_ne_zero, Nat.cast_mul]
        ring
      rw [hvalue]
      refine roundWithAccuracy_spec (stands_exact (m₁ * m₂)) (le_target ?_)
      rcases canonical₁.full with hfull | hleast₁
      · exact .inl (Nat.le_trans hfull (Nat.le_mul_of_pos_right m₁ pos₂))
      · rcases canonical₂.full with hfull | hleast₂
        · exact .inl (Nat.le_trans hfull (Nat.le_mul_of_pos_left m₂ pos₁))
        · exact .inr (by omega)

theorem Value.add {u v : UnpackedFloat} {a b : ℚ} (hu : Value u a) (hv : Value v b) :
    ∃ c, Value (UnpackedFloat.add Format.binary64 u v) c ∧ Near c (a + b) := by
  cases hu with
  | zero =>
    rw [zero_add]
    cases hv with
    | zero => exact ⟨0, .zero, near_zero⟩
    | finite pos canonical => exact ⟨_, .finite pos canonical, near_self (by positivity)⟩
  | @finite m₁ e₁ pos₁ canonical₁ =>
    cases hv with
    | zero =>
      rw [add_zero]
      exact ⟨_, .finite pos₁ canonical₁, near_self (by positivity)⟩
    | @finite m₂ e₂ pos₂ canonical₂ =>
      have h₁ := decreaseExponent_fst_mul m₁ (min_le_left e₁ e₂)
      have h₂ := decreaseExponent_fst_mul m₂ (min_le_right e₁ e₂)
      have hround := normalize_spec (k := (decreaseExponent m₁ e₁ (min e₁ e₂)).1 +
        (decreaseExponent m₂ e₂ (min e₁ e₂)).1) (by positivity) (min e₁ e₂)
      rw [← h₁, ← h₂, ← add_mul]
      exact_mod_cast hround

/-- The difference of a number and a smaller one. -/
theorem Value.sub {u v : UnpackedFloat} {a b : ℚ} (hu : Value u a) (hv : Value v b) (hle : b ≤ a) :
    ∃ c, Value (UnpackedFloat.sub Format.binary64 u v) c ∧ Near c (a - b) := by
  cases hv with
  | zero =>
    rw [sub_zero]
    cases hu with
    | zero => exact ⟨0, .zero, near_zero⟩
    | finite pos canonical => exact ⟨_, .finite pos canonical, near_self (by positivity)⟩
  | @finite m₂ e₂ pos₂ canonical₂ =>
    cases hu with
    | zero =>
      have hpos : (0 : ℚ) < m₂ * 2 ^ e₂ := by positivity
      exact absurd hle (not_le.mpr hpos)
    | @finite m₁ e₁ pos₁ canonical₁ =>
      have h₁ := decreaseExponent_fst_mul m₁ (min_le_left e₁ e₂)
      have h₂ := decreaseExponent_fst_mul m₂ (min_le_right e₁ e₂)
      have hmantissa : (decreaseExponent m₂ e₂ (min e₁ e₂)).1 ≤ (decreaseExponent m₁ e₁ (min e₁ e₂)).1 := by
        rw [← h₁, ← h₂] at hle
        exact_mod_cast le_of_mul_le_mul_right hle (zpow_pos two_pos _)
      have hround := normalize_spec (k := (decreaseExponent m₁ e₁ (min e₁ e₂)).1 -
        (decreaseExponent m₂ e₂ (min e₁ e₂)).1) (by omega) (min e₁ e₂)
      rw [Int.cast_sub, Int.cast_natCast, Int.cast_natCast, sub_mul, h₁, h₂] at hround
      exact hround

/-- The quotient of whole numbers and how much its remainder is of one make up the exact quotient. -/
theorem stands_div (n : ℕ) {d : ℕ} (hd : 0 < d) :
    Stands (.ofMantissaAndAccuracy (n / d) (accuracyOfFraction (n % d) d)) (n / d) := by
  have hdiv : (n : ℚ) / d = (n / d : ℕ) + (n % d : ℕ) / d := by
    rw [eq_comm, add_div' _ _ _ (by positivity), div_left_inj' (by positivity)]
    exact_mod_cast Nat.div_add_mod' n d
  have hdpos : (0 : ℚ) < d := by exact_mod_cast hd
  have hlt : ((n % d : ℕ) : ℚ) / d < 1 := by
    rw [div_lt_one hdpos]
    exact_mod_cast Nat.mod_lt n hd
  rw [hdiv]
  generalize n % d = r at hlt ⊢
  have hhalf : (r : ℚ) / d = 2 * r / d / 2 := by ring
  rw [accuracyOfFraction]
  split
  · next hzero => simp [hzero, Stands, worth, ExtendedMantissa.ofMantissaAndAccuracy]
  · next hne =>
    have hpos : (0 : ℚ) < r / d := div_pos (by exact_mod_cast Nat.pos_of_ne_zero hne) hdpos
    rcases hcompare : compare (2 * r) d with _ | _ | _
    · have hbelow : (2 * r : ℚ) / d < 1 := by
        rw [div_lt_one hdpos]
        exact_mod_cast Nat.compare_eq_lt.mp hcompare
      simp [Stands, worth, ExtendedMantissa.ofMantissaAndAccuracy]
      exact ⟨hpos, by linarith⟩
    · have htie : (2 * r : ℚ) / d = 1 := by
        rw [div_eq_one_iff_eq hdpos.ne']
        exact_mod_cast Nat.compare_eq_eq.mp hcompare
      simp [Stands, worth, ExtendedMantissa.ofMantissaAndAccuracy]
      linarith
    · have habove : 1 < (2 * r : ℚ) / d := by
        rw [one_lt_div hdpos]
        exact_mod_cast Nat.compare_eq_gt.mp hcompare
      simp [Stands, worth, ExtendedMantissa.ofMantissaAndAccuracy]
      exact ⟨by linarith, by linarith⟩

/-- The dividend is shifted until the quotient has all bits that are kept. -/
theorem le_target_div {m₁ m₂ : ℕ} {e₁ e₂ t : ℤ} (pos₁ : 0 < m₁) (pos₂ : 0 < m₂)
    (ht : t = min (e₁ - e₂) (Format.binary64.targetExponent (totalExponent m₁ e₁ - totalExponent m₂ e₂))) :
    t ≤ target (m₁ <<< (e₁ - e₂ - t).toNat / m₂) t := by
  refine le_target ?_
  simp only [Format.targetExponent, totalExponent, Format.mantissaBits, Format.minExponent] at ht
  by_cases hleast : t ≤ -1074
  · exact .inr hleast
  · refine .inl ((Nat.le_div_iff_mul_le pos₂).mpr ?_)
    calc 2 ^ 52 * m₂ ≤ 2 ^ 52 * 2 ^ (m₂.log2 + 1) := Nat.mul_le_mul_left _ Nat.lt_log2_self.le
      _ ≤ 2 ^ (m₁.log2 + (e₁ - e₂ - t).toNat) := by
        rw [← pow_add]
        exact Nat.pow_le_pow_right two_pos (by omega)
      _ ≤ m₁ * 2 ^ (e₁ - e₂ - t).toNat := by
        rw [pow_add]
        exact Nat.mul_le_mul_right _ (Nat.log2_self_le pos₁.ne')
      _ = m₁ <<< (e₁ - e₂ - t).toNat := (Nat.shiftLeft_eq _ _).symm

theorem Value.div {u v : UnpackedFloat} {a b : ℚ} (hu : Value u a) (hv : Value v b) (hb : 0 < b) :
    ∃ c, Value (UnpackedFloat.div Format.binary64 u v) c ∧ Near c (a / b) := by
  cases hv with
  | zero => exact absurd hb (lt_irrefl 0)
  | @finite m₂ e₂ pos₂ canonical₂ =>
    cases hu with
    | zero =>
      rw [zero_div]
      exact ⟨0, .zero, near_zero⟩
    | @finite m₁ e₁ pos₁ canonical₁ =>
      let t := min (e₁ - e₂) (Format.binary64.targetExponent (totalExponent m₁ e₁ - totalExponent m₂ e₂))
      have hround := roundWithAccuracy_spec (stands_div (m₁ <<< (e₁ - e₂ - t).toNat) pos₂)
        (le_target_div pos₁ pos₂ rfl)
      have hvalue : (m₁ <<< (e₁ - e₂ - t).toNat : ℕ) / m₂ * (2 : ℚ) ^ t =
          m₁ * 2 ^ e₁ / (m₂ * 2 ^ e₂) := by
        have hexponent : (2 : ℚ) ^ e₁ = 2 ^ (e₁ - e₂ - t).toNat * 2 ^ t * 2 ^ e₂ := by
          rw [← zpow_natCast, ← zpow_add₀ two_ne_zero, ← zpow_add₀ two_ne_zero]
          congr 1
          omega
        rw [hexponent, Nat.shiftLeft_eq]
        push_cast
        field_simp
      rw [hvalue] at hround
      exact hround

section Floats

variable {x y : Float} {a b c : ℚ}

theorem Holds.nonneg (h : Holds x a) : 0 ≤ a := Value.nonneg h

theorem Holds.mul (hx : Holds x a) (hy : Holds y b) (hbound : a * b ≤ 2 ^ 100) :
    ∃ c, Holds (x * y) c ∧ Near c (a * b) := by
  obtain ⟨c, hvalue, hnear⟩ := Value.mul hx hy
  exact ⟨c, holds_ofModel_pack hvalue (hnear.le_of_le hbound), hnear⟩

theorem Holds.add (hx : Holds x a) (hy : Holds y b) (hbound : a + b ≤ 2 ^ 100) :
    ∃ c, Holds (x + y) c ∧ Near c (a + b) := by
  obtain ⟨c, hvalue, hnear⟩ := Value.add hx hy
  exact ⟨c, holds_ofModel_pack hvalue (hnear.le_of_le hbound), hnear⟩

theorem Holds.sub (hx : Holds x a) (hy : Holds y b) (hle : b ≤ a) (hbound : a ≤ 2 ^ 100) :
    ∃ c, Holds (x - y) c ∧ Near c (a - b) := by
  obtain ⟨c, hvalue, hnear⟩ := Value.sub hx hy hle
  exact ⟨c, holds_ofModel_pack hvalue (hnear.le_of_le (by linarith [hy.nonneg])), hnear⟩

theorem Holds.div (hx : Holds x a) (hy : Holds y b) (hpos : 0 < b) (hbound : a / b ≤ 2 ^ 100) :
    ∃ c, Holds (x / y) c ∧ Near c (a / b) := by
  obtain ⟨c, hvalue, hnear⟩ := Value.div hx hy hpos
  exact ⟨c, holds_ofModel_pack hvalue (hnear.le_of_le hbound), hnear⟩

/-- A word as a float is a whole number. -/
theorem exists_whole_toFloat (n : UInt64) : ∃ r : ℕ, Holds n.toFloat r ∧ Near r n.toNat := by
  have hmodel : n.toFloat = .ofModel (.pack (UnpackedFloat.normalize Format.binary64 n.toNat 0 .positive)) := rfl
  have hword : (n.toNat : ℚ) < 2 ^ 64 := by exact_mod_cast n.toNat_lt
  rcases Nat.eq_zero_or_pos n.toNat with hzero | hpos
  · rw [hmodel, hzero]
    exact ⟨0, by exact_mod_cast holds_ofModel_pack .zero (by positivity), by exact_mod_cast near_zero⟩
  · obtain ⟨r, hvalue, hnear⟩ := round_whole hpos
    have hround : UnpackedFloat.normalize Format.binary64 n.toNat 0 .positive =
        UnpackedFloat.round Format.binary64 .positive n.toNat 0 := by
      rw [UnpackedFloat.normalize, Int.compare_eq_gt.mpr (by omega)]
      rfl
    rw [hmodel, hround]
    exact ⟨r, holds_ofModel_pack hvalue (hnear.le_of_le (hword.le.trans (by norm_num))), hnear⟩

theorem holds_toFloat (n : UInt64) : ∃ c, Holds n.toFloat c ∧ Near c n.toNat := by
  obtain ⟨r, hholds, hnear⟩ := exists_whole_toFloat n
  exact ⟨r, hholds, hnear⟩

theorem holds_of_unpack_eq {m : ℕ} {e : ℤ} {pos : 0 < m}
    (h : x.toModel.unpack = .finite .positive m e pos) : Holds x (m * 2 ^ e) := by
  rw [Holds, h]
  exact .finite pos (canonical_of_unpack h)

theorem holds_one : Holds 1 1 := by
  have hunpack : (1 : Float).toModel.unpack = .finite .positive (2 ^ 52) (-52) (by decide) := rfl
  have hvalue : ((2 ^ 52 : ℕ) : ℚ) * 2 ^ (-52 : ℤ) = 1 := by norm_num
  exact hvalue ▸ holds_of_unpack_eq hunpack

theorem holds_billion : Holds 1e9 (10 ^ 9) := by
  have hunpack : (1e9 : Float).toModel.unpack = .finite .positive 8388608000000000 (-23) (by decide) := rfl
  have hvalue : ((8388608000000000 : ℕ) : ℚ) * 2 ^ (-23 : ℤ) = 10 ^ 9 := by norm_num
  exact hvalue ▸ holds_of_unpack_eq hunpack

/-! ## Comparisons -/

/-- A float between zero and one holds a number between them. -/
theorem holds_of_pos_of_le_one (hpos : 0 < x) (hle : x ≤ 1) : ∃ a, Holds x a ∧ 0 < a ∧ a ≤ 1 := by
  have hzero : (0 : Float).toModel.unpack = .zero .positive := rfl
  have hone : (1 : Float).toModel.unpack = .finite .positive (2 ^ 52) (-52) (by decide) := rfl
  have hpos' : UnpackedFloat.lt (.zero .positive) x.toModel.unpack = true := of_decide_eq_true hpos
  have hle' : UnpackedFloat.le x.toModel.unpack (.finite .positive (2 ^ 52) (-52) (by decide)) = true :=
    of_decide_eq_true hle
  simp only [Holds]
  cases hunpack : x.toModel.unpack with
  | infinity sign =>
    rw [hunpack] at hpos' hle'
    cases sign
    · cases hpos'
    · cases hle'
  | notANumber =>
    rw [hunpack] at hpos'
    cases hpos'
  | zero sign =>
    rw [hunpack] at hpos'
    cases hpos'
  | finite sign m e pos =>
    rw [hunpack] at hpos' hle'
    cases sign with
    | negative => cases hpos'
    | positive =>
      have canonical : Canonical m e := canonical_of_unpack hunpack
      have hunit : Canonical (2 ^ 52) (-52) := ⟨by decide, by decide, .inl (Nat.le_refl _)⟩
      simp only [UnpackedFloat.le, UnpackedFloat.compare, Option.any_some] at hle'
      refine ⟨m * 2 ^ e, .finite pos canonical, by positivity, ?_⟩
      rcases hcompare : (compare e (-52)).then (compare m (2 ^ 52)) with _ | _ | _
      · have hlt := canonical.lt_of_compare hunit hcompare
        norm_num at hlt ⊢
        exact hlt.le
      · obtain ⟨he, hm⟩ := Ordering.then_eq_eq.mp hcompare
        rw [Int.compare_eq_eq.mp he, Nat.compare_eq_eq.mp hm]
        norm_num
      · rw [hcompare] at hle'
        cases hle'

theorem Holds.not_neg (h : Holds x a) : ¬x < 0 := by
  intro hneg
  have hlt : UnpackedFloat.lt x.toModel.unpack (.zero .positive) = true := of_decide_eq_true hneg
  rw [Holds] at h
  generalize x.toModel.unpack = u at h hlt
  cases h <;> cases hlt

/-! ## Whole numbers -/

/-- Reading off the bits what a float unpacks to. -/
theorem magnitude?_eq (x : Float) :
    magnitude? x = match x.toModel.unpack with
      | .finite _ m e _ => some (m, e)
      | .zero _ => some (0, -1074)
      | _ => none := by
  have hbits : x.toBits.toNat = x.toModel.toBits.toBitVec.toNat := rfl
  simp only [magnitude?, hbits, ← toNat_unpackMantissa, ← toNat_unpackExponent, Float.Model.unpack,
    UnpackedFloat.unpack]
  generalize (unpackExponent _ : BitVec Format.binary64.exponentBits) = exponent
  by_cases hones : exponent = -1#11
  · subst hones
    have hvalue : (-1#11).toNat = 2 ^ 11 - 1 := rfl
    simp only [hvalue, if_true]
    split_ifs <;> rfl
  · have hfinite : exponent.toNat ≠ 2 ^ 11 - 1 := fun heq => hones (BitVec.eq_of_toNat_eq heq)
    simp only [if_neg hfinite, if_neg hones]
    by_cases hzero : exponent = 0#11
    · subst hzero
      simp only [BitVec.toNat_zero, if_true]
      split_ifs with hmantissa
      · rw [hmantissa]
        rfl
      · rfl
    · have hnormal : exponent.toNat ≠ 0 := fun heq => hzero (BitVec.eq_of_toNat_eq heq)
      simp only [if_neg hnormal, if_neg hzero]
      exact congrArg some (Prod.ext (toNat_implicit _).symm rfl)

theorem exists_magnitude?_eq (h : Holds x a) : ∃ m e, magnitude? x = some (m, e) ∧ a = m * 2 ^ e := by
  rw [Holds] at h
  rw [magnitude?_eq]
  generalize x.toModel.unpack = u at h ⊢
  cases h with
  | zero => exact ⟨0, -1074, rfl, by rw [Nat.cast_zero, zero_mul]⟩
  | finite pos canonical => exact ⟨_, _, rfl, rfl⟩

/-- Cutting off the fraction leaves the whole part. -/
theorem Value.toNat_toInt {u : UnpackedFloat} (h : Value u a) (lowest highest : ℤ) :
    (u.toInt lowest highest).toNat = ⌊a⌋₊ := by
  cases h with
  | zero => simp [UnpackedFloat.toInt]
  | @finite m e pos canonical =>
    have hvalue := decreaseExponent_value m e 0
    have he : (decreaseExponent m e 0).2 ≤ 0 := by
      simp only [decreaseExponent]
      omega
    simp only [UnpackedFloat.toInt, roundToInt, shiftToExponent, Sign.apply, zero_sub]
    generalize (decreaseExponent m e 0).1 = m' at hvalue ⊢
    generalize (decreaseExponent m e 0).2 = e' at hvalue he ⊢
    have hcut : (m : ℚ) * 2 ^ e = m' / 2 ^ (-e').toNat := by
      rw [← hvalue, ← zpow_natCast, Int.toNat_of_nonneg (by omega), zpow_neg, div_inv_eq_mul]
    have hbounds := ((stands_exact m').shiftRight (-e').toNat).bounds
    rw [← hcut] at hbounds
    exact ((Nat.floor_eq_iff (by positivity)).mpr hbounds).symm

theorem floorWord_le (x : Float) : floorWord x ≤ wordMax := Nat.le_pred_of_lt x.toUInt64.toNat_lt

theorem ceilWord_le (x : Float) : ceilWord x ≤ wordMax := by
  rw [ceilWord]
  split
  · exact Nat.min_le_right _ _
  · exact floorWord_le x

/-- The greatest word not above a number. -/
theorem floorWord_eq (h : Holds x a) : floorWord x = min ⌊a⌋₊ wordMax := by
  have hfloor : floorWord x =
      (UInt64.ofNatClamp (x.toModel.unpack.toInt 0 (UInt64.size - 1)).toNat).toNat := rfl
  rw [hfloor, Value.toNat_toInt h, UInt64.ofNatClamp]
  split
  · next hlt => exact (Nat.min_eq_left (Nat.le_pred_of_lt hlt)).symm
  · next hlarge =>
    refine (Nat.min_eq_right ?_).symm
    show 2 ^ 64 - 1 ≤ ⌊a⌋₊
    have hsize : UInt64.size = 2 ^ 64 := rfl
    omega

/-- What is cut off to a word is less than one, unless the word is the largest. -/
theorem lt_floorWord_add_one (h : Holds x a) : floorWord x = wordMax ∨ a < floorWord x + 1 := by
  rw [floorWord_eq h]
  rcases le_total ⌊a⌋₊ wordMax with hword | hlarge
  · rw [Nat.min_eq_left hword]
    exact .inr (Nat.lt_floor_add_one a)
  · exact .inl (Nat.min_eq_right hlarge)

theorem abs_divNearestEven_sub_le (n : ℕ) {d : ℕ} (hd : 0 < d) :
    |(divNearestEven n d : ℚ) - n / d| ≤ 1 / 2 := by
  have hdpos : (0 : ℚ) < d := by exact_mod_cast hd
  have hdiv : (n : ℚ) = (n / d : ℕ) * d + (n % d : ℕ) := by exact_mod_cast (Nat.div_add_mod' n d).symm
  have hlt : ((n % d : ℕ) : ℚ) < d := by exact_mod_cast Nat.mod_lt n hd
  have hnonneg : (0 : ℚ) ≤ (n % d : ℕ) := Nat.cast_nonneg _
  rw [hdiv, add_div, mul_div_cancel_right₀ _ hdpos.ne', divNearestEven]
  generalize n % d = r at hlt hnonneg ⊢
  rw [abs_le]
  split
  · next hup =>
    have hhalf : 1 / 2 ≤ (r : ℚ) / d := by
      rw [div_le_div_iff₀ two_pos hdpos]
      have : d ≤ 2 * r := by omega
      exact_mod_cast (by omega : 1 * d ≤ r * 2)
    have hone : (r : ℚ) / d ≤ 1 := (div_le_one hdpos).mpr hlt.le
    push_cast
    constructor <;> linarith
  · next hdown =>
    have hhalf : (r : ℚ) / d ≤ 1 / 2 := by
      rw [div_le_div_iff₀ hdpos two_pos]
      exact_mod_cast (by omega : r * 2 ≤ 1 * d)
    have hzero : (0 : ℚ) ≤ r / d := div_nonneg hnonneg hdpos.le
    constructor <;> linarith

theorem exists_scaledNearestEven?_eq (h : Holds x a) (scale : ℕ) :
    ∃ n, scaledNearestEven? scale x = some n ∧ |(n : ℚ) - a * scale| ≤ 1 / 2 := by
  obtain ⟨m, e, hmagnitude, rfl⟩ := exists_magnitude?_eq h
  rw [scaledNearestEven?, hmagnitude]
  refine ⟨if 0 ≤ e then m * scale * 2 ^ e.toNat else divNearestEven (m * scale) (2 ^ (-e).toNat), rfl, ?_⟩
  split
  · next he =>
    have hvalue : ((m * scale * 2 ^ e.toNat : ℕ) : ℚ) = m * 2 ^ e * scale := by
      rw [← Int.toNat_of_nonneg he, zpow_natCast, Int.toNat_natCast]
      push_cast
      ring
    rw [hvalue, sub_self, abs_zero]
    norm_num
  · next he =>
    have hvalue : (m * 2 ^ e * scale : ℚ) = (m * scale : ℕ) / (2 ^ (-e).toNat : ℕ) := by
      rw [Nat.cast_pow, ← zpow_natCast, Int.toNat_of_nonneg (by omega), Nat.cast_two, zpow_neg, div_inv_eq_mul]
      push_cast
      ring
    rw [hvalue]
    exact abs_divNearestEven_sub_le _ (by positivity)

/-! ## The nearest word -/

theorem nearestWord_le (x : Float) : nearestWord x ≤ wordMax := by
  rw [nearestWord]
  split
  · exact Nat.min_le_right _ _
  · exact floorWord_le x

theorem sub_zero_toFloat (x : Float) : x - (0 : UInt64).toFloat = x := by
  have hsub (u : UnpackedFloat) : UnpackedFloat.sub Format.binary64 u (.zero .positive) = u := by
    cases u with
    | zero sign => cases sign <;> rfl
    | _ => rfl
  obtain ⟨⟨⟨bits⟩, valid⟩⟩ := x
  have hbits : UnpackedFloat.pack Format.binary64 (UnpackedFloat.sub Format.binary64
      (UnpackedFloat.unpack Format.binary64 bits) (.zero .positive)) = bits := by
    rw [hsub]
    exact pack_unpack_of_valid valid
  show Float.ofModel ⟨⟨UnpackedFloat.pack Format.binary64 (UnpackedFloat.sub Format.binary64
    (UnpackedFloat.unpack Format.binary64 bits) (.zero .positive))⟩, _⟩ = _
  simp only [hbits]

/-- A float with a whole part is at least one half. -/
theorem half_le_of_toUInt64_ne_zero (h : x.toUInt64 ≠ 0) : 0.5 ≤ x := by
  have hhalf : (0.5 : Float).toModel.unpack = .finite .positive (2 ^ 52) (-53) (by decide) := rfl
  have hwhole : (x.toModel.unpack.toInt 0 (UInt64.size - 1)).toNat ≠ 0 := fun hzero => h <| by
    show UInt64.ofNatClamp _ = 0
    rw [hzero]
    rfl
  refine decide_eq_true (?_ : UnpackedFloat.le (0.5 : Float).toModel.unpack x.toModel.unpack = true)
  rw [hhalf]
  cases hunpack : x.toModel.unpack with
  | notANumber =>
    rw [hunpack] at hwhole
    exact absurd rfl hwhole
  | zero sign =>
    rw [hunpack] at hwhole
    exact absurd rfl hwhole
  | infinity sign =>
    rw [hunpack] at hwhole
    cases sign with
    | negative => exact absurd rfl hwhole
    | positive => rfl
  | finite sign m e pos =>
    have canonical : Canonical m e := canonical_of_unpack hunpack
    rw [hunpack] at hwhole
    cases sign with
    | negative =>
      refine absurd (Int.toNat_eq_zero.mpr ?_) hwhole
      simp only [UnpackedFloat.toInt, roundToInt, Sign.apply]
      omega
    | positive =>
      have hbits : Canonical (2 ^ 52) (-53) := ⟨by decide, by decide, .inl (Nat.le_refl _)⟩
      rw [Value.toNat_toInt (.finite pos canonical), ne_eq, Nat.floor_eq_zero, not_lt] at hwhole
      have hnot : (compare e (-53)).then (compare m (2 ^ 52)) ≠ .lt := by
        intro hbelow
        have hlt := canonical.lt_of_compare hbits hbelow
        norm_num at hlt
        linarith
      simp only [UnpackedFloat.le, UnpackedFloat.compare, Option.any_some]
      rw [← Int.compare_swap e, ← Nat.compare_swap m, ← Ordering.swap_then, Ordering.isLE_swap]
      exact Ordering.isGE_iff_ne_lt.mpr hnot

/-- The nearest word is positive from one half on. -/
theorem nearestWord_pos_iff (x : Float) : 0 < nearestWord x ↔ 0.5 ≤ x := by
  by_cases hwhole : x.toUInt64 = 0
  · have hnearest : nearestWord x = if 0.5 ≤ x then 1 else 0 := by
      rw [nearestWord, hwhole]
      simp only [sub_zero_toFloat]
      rfl
    rw [hnearest]
    split <;> simp_all
  · refine iff_of_true ?_ (half_le_of_toUInt64_ne_zero hwhole)
    have hpos : 0 < x.toUInt64.toNat := Nat.pos_of_ne_zero fun hzero => hwhole (UInt64.toNat_inj.mp hzero)
    simp only [nearestWord]
    split
    · exact lt_min (Nat.succ_pos _) (by decide)
    · exact hpos

end Floats

end RaftReplica.Binary64
