import RaftReplica.Json.Scan

/-!
# Whole numbers in JSON are read back

A whole number is written in the digits it needs.  A reader takes all digits that stand together, so it gets
the number back as long as no digit follows, and nothing that would make the number a fraction.

* `digit` is the byte of a digit; `decimalDigits_of_lt` and `decimalDigits_mul_add` are the recursion along
  which everything else about the digits of a number is shown.
* `EndsNumber` says what may follow a number, and `natUpTo?_decimalDigits` reads the number off the front.
-/

namespace RaftReplica.Json

/-- The byte of a decimal digit. -/
def digit (value : Nat) : UInt8 := (48 + value).toUInt8

theorem ascii_digitChar {value : Nat} (h : value < 10) : ascii value.digitChar = digit value := by
  rw [ascii, Nat.toNat_digitChar_of_lt_ten h, digit]

theorem toNat_digit {value : Nat} (h : value < 10) : (digit value).toNat = 48 + value := by
  rw [digit, Nat.toUInt8_eq, UInt8.toNat_ofNat']
  omega

theorem isDigit_digit {value : Nat} (h : value < 10) : isDigit (digit value) := by
  have hvalue := toNat_digit h
  rw [isDigit, Bool.and_eq_true, decide_eq_true_iff, decide_eq_true_iff, UInt8.le_iff_toNat_le,
    UInt8.le_iff_toNat_le, hvalue]
  exact ⟨Nat.le_add_right 48 value, Nat.add_le_add_left (Nat.le_of_lt_succ h) 48⟩

/-! ## The digits of a number -/

theorem decimalDigits_of_lt {n : Nat} (h : n < 10) : decimalDigits n = [digit n] := by
  rw [decimalDigits, asciiBytes, Nat.toList_repr, Nat.toDigits_of_lt_base h, List.map_singleton,
    ascii_digitChar h]

theorem decimalDigits_mul_add {m k : Nat} (hm : 0 < m) (hk : k < 10) :
    decimalDigits (10 * m + k) = decimalDigits m ++ [digit k] := by
  simp only [decimalDigits, asciiBytes, Nat.toList_repr]
  rw [← Nat.toDigits_append_toDigits (by decide) hm hk, List.map_append, Nat.toDigits_of_lt_base hk,
    List.map_singleton, ascii_digitChar hk]

theorem decimalDigits_ne_nil (n : Nat) : decimalDigits n ≠ [] := by
  simp [decimalDigits, asciiBytes]

theorem isDigit_of_mem_decimalDigits {n : Nat} {b : UInt8} (h : b ∈ decimalDigits n) : isDigit b := by
  induction n using Nat.base_induction 10 (by decide) with
  | single n hn =>
    rw [decimalDigits_of_lt hn, List.mem_singleton] at h
    exact h ▸ isDigit_digit hn
  | digit m k hk hm ih =>
    rw [decimalDigits_mul_add hm hk, List.mem_append, List.mem_singleton] at h
    rcases h with h | h
    · exact ih h
    · exact h ▸ isDigit_digit hk

theorem digitsValue_decimalDigits (n : Nat) : digitsValue (decimalDigits n) = n := by
  induction n using Nat.base_induction 10 (by decide) with
  | single n hn => simp [decimalDigits_of_lt hn, digitsValue, toNat_digit hn]
  | digit m k hk hm ih =>
    rw [digitsValue] at ih
    rw [decimalDigits_mul_add hm hk, digitsValue, List.foldl_append, ih, List.foldl_cons,
      List.foldl_nil, toNat_digit hk, Nat.add_sub_cancel_left, Nat.mul_comm]

/-- A number other than zero has no leading zero. -/
theorem exists_cons_decimalDigits {n : Nat} (h : 0 < n) :
    ∃ b rest, decimalDigits n = b :: rest ∧ b ≠ 48 := by
  induction n using Nat.base_induction 10 (by decide) with
  | single n hn =>
    refine ⟨digit n, [], decimalDigits_of_lt hn, fun hzero => ?_⟩
    have : 48 + n = 48 := (toNat_digit hn).symm.trans (congrArg UInt8.toNat hzero)
    omega
  | digit m k hk hm ih =>
    obtain ⟨b, rest, heq, hb⟩ := ih hm
    exact ⟨b, rest ++ [digit k], by rw [decimalDigits_mul_add hm hk, heq, List.cons_append], hb⟩

/-! ## Reading them -/

theorem skipBlank_cons {b : UInt8} (h : isBlank b = false) (rest : Bytes) :
    skipBlank (b :: rest) = b :: rest := by
  rw [skipBlank, List.dropWhile_cons, h]
  rfl

theorem isBlank_of_isDigit {b : UInt8} (h : isDigit b) : isBlank b = false := by
  cases hblank : isBlank b with
  | false => rfl
  | true =>
    simp only [isBlank, Bool.or_eq_true, decide_eq_true_eq] at hblank
    rcases hblank with ((rfl | rfl) | rfl) | rfl <;> exact absurd h (by decide)

theorem skipBlank_decimalDigits (n : Nat) (rest : Bytes) :
    skipBlank (decimalDigits n ++ rest) = decimalDigits n ++ rest := by
  obtain ⟨b, tail, hdigits⟩ := List.exists_cons_of_ne_nil (decimalDigits_ne_nil n)
  have hb : isDigit b := isDigit_of_mem_decimalDigits (hdigits ▸ List.mem_cons_self : b ∈ decimalDigits n)
  rw [hdigits, List.cons_append, skipBlank_cons (isBlank_of_isDigit hb)]

/-- What may follow a whole number: nothing that goes on with its digits, and no fraction or exponent. -/
def EndsNumber : Bytes → Prop
  | [] => True
  | b :: _ => isDigit b = false ∧ b ≠ ascii '.' ∧ b ≠ ascii 'e' ∧ b ≠ ascii 'E'

theorem endsNumber_nil : EndsNumber [] := trivial

theorem EndsNumber.takeWhile {rest : Bytes} (h : EndsNumber rest) : rest.takeWhile isDigit = [] := by
  cases rest with
  | nil => rfl
  | cons b rest => rw [List.takeWhile_cons, h.1]; rfl

theorem EndsNumber.dropWhile {rest : Bytes} (h : EndsNumber rest) : rest.dropWhile isDigit = rest := by
  cases rest with
  | nil => rfl
  | cons b rest => rw [List.dropWhile_cons, h.1]; rfl

theorem wholeDigits?_decimalDigits (n : Nat) {rest : Bytes} (h : EndsNumber rest) :
    wholeDigits? (decimalDigits n ++ rest) = some (decimalDigits n, rest) := by
  have hall : ∀ b ∈ decimalDigits n, isDigit b := fun b => isDigit_of_mem_decimalDigits
  have htake : (decimalDigits n ++ rest).takeWhile isDigit = decimalDigits n := by
    rw [List.takeWhile_append_of_pos hall, h.takeWhile, List.append_nil]
  have hdrop : (decimalDigits n ++ rest).dropWhile isDigit = rest := by
    rw [List.dropWhile_append_of_pos hall, h.dropWhile]
  rw [wholeDigits?, htake, hdrop]
  rcases Nat.eq_zero_or_pos n with rfl | hn
  · rfl
  · obtain ⟨b, tail, heq, hb⟩ := exists_cons_decimalDigits hn
    rw [heq]
    split
    · contradiction
    · next hcons => exact absurd (List.cons.inj hcons).1 hb
    · rfl

/-- A number within the bound is read back from its digits. -/
theorem natUpTo?_decimalDigits {n max : Nat} (hmax : n ≤ max) {rest : Bytes} (h : EndsNumber rest) :
    natUpTo? max (decimalDigits n ++ rest) = some (n, rest) := by
  rw [natUpTo?, skipBlank_decimalDigits, wholeDigits?_decimalDigits n h]
  cases rest with
  | nil => simp [digitsValue_decimalDigits, hmax]
  | cons b rest => simp [digitsValue_decimalDigits, hmax, h.2]

end RaftReplica.Json
