import Mathlib.Tactic.SplitIfs
import RaftReplica.Json.Scan
import RaftReplica.Proofs.Json.Number
import RaftReplica.Proofs.Text.Form

/-!
# Strings in JSON are read back

A string is escaped byte by byte, and a reader takes one byte's escape after the other, so that bytes of any
value come back, whether or not they are escaped.

* `readContent_escapeByte`: the escape of one byte is read as that byte.
* `string?_quote` reads a whole string off the front, `optionalString?_quote` does so where there might be
  none.
* `expect?_mark` and `expect?_other` say when a mark is taken.
-/

namespace RaftReplica.Json

/-! ## Marks -/

theorem expect?_mark {mark : Char} (h : isBlank (ascii mark) = false) (rest : Bytes) :
    expect? mark (ascii mark :: rest) = some rest := by
  rw [expect?, skipBlank_cons h]
  exact if_pos rfl

theorem expect?_other {mark : Char} {b : UInt8} (hblank : isBlank b = false) (hne : b ≠ ascii mark)
    (rest : Bytes) : expect? mark (b :: rest) = none := by
  rw [expect?, skipBlank_cons hblank]
  exact if_neg hne

/-! ## Escapes -/

/-- An ASCII character is its own UTF-8 form. -/
theorem utf8_of_lt {n : Nat} (h : n < 128) : utf8 n = [n.toUInt8] := by
  have hvalid : n.isValidChar := .inl (by omega)
  have hval : (Char.ofNat n).val.toNat = n := by
    rw [Char.ofNat, dif_pos hvalid]
    rfl
  have hsize : (Char.ofNat n).utf8Size = 1 := by
    rw [Char.utf8Size, if_pos (UInt32.le_iff_toNat_le.mpr (by rw [hval]; exact Nat.le_of_lt_succ h))]
  have hform : (Char.ofNat n).toString.toUTF8 = [(Char.ofNat n).val.toUInt8].toByteArray := by
    rw [← String.utf8EncodeChar_eq_singleton hsize, ← List.utf8Encode_singleton]
    exact String.toByteArray_singleton
  rw [utf8, Bytes.ofText, Bytes.toList_eq_data_toList, hform, List.toList_data_toByteArray]
  rw [List.cons.injEq, ← UInt8.toNat_inj, UInt32.toNat_toUInt8, hval]
  exact ⟨rfl, rfl⟩

theorem hexValue?_hexDigit {n : Nat} (h : n < 16) : hexValue? (hexDigit n) = some n := by
  have hall : ∀ n < 16, hexValue? (hexDigit n) = some n := by decide
  exact hall n h

theorem readContent_letter {letter byte : UInt8} (h : escaped? letter = some byte) (bytes : Bytes) :
    readContent (92 :: letter :: bytes) =
      (readContent bytes).map fun (content, rest) => (byte :: content, rest) := by
  have hne : letter ≠ 117 := by
    rintro rfl
    have hnone : escaped? 117 = none := by decide
    rw [hnone] at h
    cases h
  rw [readContent]
  · simp only [h, Option.bind_eq_bind, Option.bind_some]
    cases readContent bytes <;> rfl
  · simp [hne]

theorem readContent_unit {n : Nat} (h : n < 32) (bytes : Bytes) :
    readContent (92 :: 117 :: 48 :: 48 :: hexDigit (n / 16) :: hexDigit (n % 16) :: bytes) =
      (readContent bytes).map fun (content, rest) => (n.toUInt8 :: content, rest) := by
  have hunit : hexUnit? 48 48 (hexDigit (n / 16)) (hexDigit (n % 16)) = some n := by
    have hzero : hexValue? 48 = some 0 := by decide
    simp only [hexUnit?, hzero, hexValue?_hexDigit (by omega : n / 16 < 16),
      hexValue?_hexDigit (by omega : n % 16 < 16), Option.bind_eq_bind, Option.bind_some, Option.pure_def,
      Option.some.injEq]
    omega
  rw [readContent]
  simp only [hunit, Option.bind_eq_bind, Option.bind_some, if_neg (by omega : ¬(0xDC00 ≤ n ∧ n ≤ 0xDFFF)),
    if_neg (by omega : ¬(0xD800 ≤ n ∧ n ≤ 0xDBFF)), utf8_of_lt (by omega : n < 128)]
  cases readContent bytes <;> rfl

theorem readContent_plain {b : UInt8} (hquote : b ≠ ascii '"') (hslash : b ≠ ascii '\\') (hlow : ¬b < 32)
    (bytes : Bytes) :
    readContent (b :: bytes) = (readContent bytes).map fun (content, rest) => (b :: content, rest) := by
  rw [readContent]
  · rw [if_neg hquote, if_neg (not_or.mpr ⟨hlow, hslash⟩)]
  · rintro _ _ _ _ _ rfl
    exact (hslash rfl).elim
  · rintro _ _ rfl
    exact (hslash rfl).elim

/-- The escape of a byte is read as the byte. -/
theorem readContent_escapeByte (b : UInt8) (bytes : Bytes) :
    readContent (escapeByte b ++ bytes) =
      (readContent bytes).map fun (content, rest) => (b :: content, rest) := by
  unfold escapeByte
  split_ifs with hquote hslash hbackspace htab hline hform hreturn hlow
  · subst hquote; exact readContent_letter rfl bytes
  · subst hslash; exact readContent_letter rfl bytes
  · subst hbackspace; exact readContent_letter rfl bytes
  · subst htab; exact readContent_letter rfl bytes
  · subst hline; exact readContent_letter rfl bytes
  · subst hform; exact readContent_letter rfl bytes
  · subst hreturn; exact readContent_letter rfl bytes
  · have hbyte : b.toNat.toUInt8 = b := by rw [Nat.toUInt8_eq, UInt8.ofNat_toNat]
    have hread := readContent_unit (UInt8.lt_iff_toNat_lt.mp hlow) bytes
    rw [hbyte] at hread
    exact hread
  · exact readContent_plain hquote hslash hlow bytes

/-! ## Strings -/

/-- The content of a string is read up to the quotation mark behind it. -/
theorem readContent_quoteBytes (content rest : Bytes) :
    readContent (content.flatMap escapeByte ++ ascii '"' :: rest) = some (content, rest) := by
  induction content with
  | nil =>
    rw [List.flatMap_nil, List.nil_append, readContent]
    · exact if_pos rfl
    · rintro _ _ _ _ _ h; cases h
    · rintro _ _ h; cases h
  | cons b content ih =>
    rw [List.flatMap_cons, List.append_assoc, readContent_escapeByte, ih]
    rfl

/-- A string is read back from what it is quoted as. -/
theorem string?_quote (s : String) (rest : Bytes) : string? (quote s ++ rest) = some (s, rest) := by
  have hbytes : quote s ++ rest =
      ascii '"' :: ((Bytes.ofText s).flatMap escapeByte ++ ascii '"' :: rest) := by
    rw [quote, quoteBytes, List.cons_append, List.cons_append, List.append_assoc, List.singleton_append]
  simp only [string?, hbytes, expect?_mark (by decide : isBlank (ascii '"') = false),
    readContent_quoteBytes, Bytes.text?_ofText, Option.bind_eq_bind, Option.bind_some, Option.pure_def]

theorem optionalString?_quote (s : String) (rest : Bytes) :
    optionalString? (quote s ++ rest) = some (some s, rest) := by
  have hword : word? (asciiBytes "null") (skipBlank (quote s ++ rest)) = none := by
    rw [quote, quoteBytes, List.cons_append, List.cons_append, skipBlank_cons (by decide)]
    rfl
  rw [optionalString?, hword, string?_quote]
  rfl

end RaftReplica.Json
