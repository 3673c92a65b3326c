import RaftReplica.Number.Radix

/-!
# Numbers in base sixteen are read back

The digits of a number are read one by one, and the value so far is never larger than the number itself.  So
a number that a word holds is read back from its digits, and no digit is refused on the way.

* `readDigits_digits`: after the digits of a number the value is that number.
* `read_digits`: a whole text made of the digits of a number is read as the number.
-/

namespace RaftReplica.Radix

theorem digitValue?_digitChar {value : Nat} (h : value < 16) :
    digitValue? (digitChar value) = some value := by
  have : ∀ value < 16, digitValue? (digitChar value) = some value := by decide
  exact this value h

/-- The digits of a number come before the rest, and the value before them is nothing. -/
theorem readDigits_digits {n : Nat} (h : n ≤ wordMax) (rest : List Char) :
    readDigits 0 (digits n ++ rest) = readDigits n rest := by
  fun_induction digits n generalizing rest with
  | case1 n hlt =>
    simp [readDigits, digitValue?_digitChar hlt, h]
  | case2 n hge ih =>
    have hlast : n / 16 * 16 + n % 16 = n := Nat.div_add_mod' n 16
    rw [List.append_assoc, ih (Nat.le_trans (Nat.div_le_self n 16) h)]
    simp [readDigits, digitValue?_digitChar (Nat.mod_lt n (by decide)), hlast, h]

theorem digitValue?_isSome_of_mem_digits {n : Nat} {c : Char} (h : c ∈ digits n) :
    (digitValue? c).isSome := by
  fun_induction digits n with
  | case1 n hlt =>
    rw [List.mem_singleton.mp h, digitValue?_digitChar hlt]
    rfl
  | case2 n hge ih =>
    rcases List.mem_append.mp h with h | h
    · exact ih h
    · rw [List.mem_singleton.mp h, digitValue?_digitChar (Nat.mod_lt n (by decide))]
      rfl

theorem digits_ne_nil (n : Nat) : digits n ≠ [] := by
  fun_cases digits n <;> simp

/-- A number that a word holds is read back from its digits. -/
theorem read_digits {n : Nat} (h : n ≤ wordMax) : read (digits n) = .ok n := by
  obtain ⟨c, rest, hdigits⟩ := List.exists_cons_of_ne_nil (digits_ne_nil n)
  have hsign : c ≠ '+' := by
    rintro rfl
    have := digitValue?_isSome_of_mem_digits (hdigits ▸ List.mem_cons_self : '+' ∈ digits n)
    exact absurd this (by decide)
  have hread : readDigits 0 (c :: rest) = .ok n := by
    have := readDigits_digits h []
    rwa [List.append_nil, hdigits] at this
  rw [hdigits, read]
  · exact hread
  · simp
  · simpa using fun h _ => hsign h
  · simpa using fun h => hsign h

end RaftReplica.Radix
