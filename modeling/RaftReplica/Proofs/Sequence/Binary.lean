import Mathlib.Algebra.BigOperators.Fin
import Mathlib.Tactic.Ring
import RaftReplica.Proofs.Sequence.Checkpoint

/-!
# The binary form of a sequence

A sequence is written down as one number, and read from any bytes that are one number, in whatever form: also
from one with more bytes than it takes, and from one that says more than 64 bits.  Of other bytes it can be
said why they are refused, without reading them one by one.

* `Varint.IsNumeral` is what counts as one number, and `value_eq_sum` which number it is.
* `ofBinary_append` and `ofBinary_of_none` say what comes of bytes that begin with a number, and of others.
* `toBinary_length_le` finds no shorter form than the one that is written, and `eq_of_isPrefix_toBinary` no
  written form that begins another.
* `binary_form_exact` sums up.
-/

namespace RaftReplica

namespace Varint

/-- The bytes are one number: ten at most, of which all but the last have the upper bit set. -/
def IsNumeral (form : Bytes) : Prop :=
  ∃ upper last, form = upper ++ [last] ∧ (∀ byte ∈ upper, 128 ≤ byte) ∧ last < 128 ∧ form.length ≤ 10

theorem isNumeral_iff {form : Bytes} : IsNumeral form ↔ Complete form ∧ form.length ≤ maxLength := by
  rw [complete_iff]
  constructor
  · rintro ⟨upper, last, hform, hupper, hlast, hlength⟩
    exact ⟨⟨upper, last, hform, hupper, hlast⟩, hlength⟩
  · rintro ⟨⟨upper, last, hform, hupper, hlast⟩, hlength⟩
    exact ⟨upper, last, hform, hupper, hlast, hlength⟩

/-- The lower seven bits of a byte weigh as much as there are such bits before it. -/
theorem value_eq_sum (form : Bytes) :
    value form = ∑ i : Fin form.length, (form.get i).toNat % 128 * 2 ^ (7 * i.val) := by
  induction form with
  | nil => rfl
  | cons byte rest ih =>
    show byte.toNat % 128 + 128 * value rest = ∑ i : Fin (rest.length + 1), _
    rw [ih, Fin.sum_univ_succ, Finset.mul_sum]
    congr 1
    · simp
    · refine Finset.sum_congr rfl fun i _ => ?_
      show 128 * ((rest.get i).toNat % 128 * 2 ^ (7 * i.val)) =
        (rest.get i).toNat % 128 * 2 ^ (7 * (i.val + 1))
      rw [Nat.mul_succ, Nat.pow_add]
      ring

/-- Of bytes that begin with a number the number is read, and the rest is left. -/
theorem IsNumeral.decode_append {form : Bytes} (h : IsNumeral form) (rest : Bytes) :
    decode (form ++ rest) = some (value form % 2 ^ 64, rest) := by
  obtain ⟨hcomplete, hlength⟩ := isNumeral_iff.mp h
  rw [decode, hcomplete.decodeWithin_append hlength, Option.map_some]

/-- Whatever is read stands at the front. -/
theorem exists_isNumeral_of_decode {bytes rest : Bytes} {n : Nat} (h : decode bytes = some (n, rest)) :
    ∃ form, IsNumeral form ∧ form <+: bytes := by
  obtain ⟨⟨m, rest'⟩, hread, -⟩ := Option.map_eq_some_iff.mp h
  obtain ⟨form, hcomplete, hlength, hbytes, -⟩ := decodeWithin_eq_some_iff.mp hread
  exact ⟨form, isNumeral_iff.mpr ⟨hcomplete, hlength⟩, rest', hbytes.symm⟩

end Varint

namespace Sequence

open Varint (IsNumeral value isNumeral_iff)

variable {s s' : Sequence} {b form rest : Bytes}

/-! ## Reading -/

theorem start_eq_iff {n : Nat} (hn : n < 2 ^ 64) : start n.toUInt64 = s ↔ s.current.toNat = n := by
  have hword : n.toUInt64.toNat = n := by
    rw [Nat.toUInt64_eq, UInt64.toNat_ofNat', Nat.mod_eq_of_lt hn]
  constructor
  · rintro rfl
    exact hword
  · intro h
    cases s
    exact congrArg start (UInt64.toNat_inj.mp (hword.trans h.symm))

/-- Bytes that are one number are taken up, and bytes behind it are counted. -/
theorem ofBinary_append (h : IsNumeral form) (rest : Bytes) :
    ofBinary (form ++ rest) =
      if rest = [] then .ok (start (value form % 2 ^ 64).toUInt64)
      else .error (.trailingBytes rest.length) := by
  rw [ofBinary, h.decode_append]
  cases rest with
  | nil => rfl
  | cons byte rest => rfl

theorem ofBinary_of_none (h : ¬∃ form, IsNumeral form ∧ form <+: b) :
    ofBinary b = .error .malformedBinary := by
  cases hread : Varint.decode b with
  | none => rw [ofBinary, hread]
  | some read => exact absurd (Varint.exists_isNumeral_of_decode hread) h

theorem ofBinary_eq_ok_iff :
    ofBinary b = .ok s ↔ IsNumeral b ∧ s.current.toNat = value b % 2 ^ 64 := by
  have hbound : ∀ form, value form % 2 ^ 64 < 2 ^ 64 := fun form => Nat.mod_lt _ (by decide)
  constructor
  · intro h
    by_cases hbegins : ∃ form, IsNumeral form ∧ form <+: b
    · obtain ⟨form, hform, rest, rfl⟩ := hbegins
      rw [ofBinary_append hform] at h
      split at h
      · rename_i hrest
        subst hrest
        rw [List.append_nil]
        exact ⟨hform, (start_eq_iff (hbound form)).mp (Except.ok.inj h)⟩
      · cases h
    · rw [ofBinary_of_none hbegins] at h
      cases h
  · rintro ⟨hform, hvalue⟩
    have hread := ofBinary_append hform []
    rw [List.append_nil, if_pos rfl, (start_eq_iff (hbound b)).mpr hvalue] at hread
    exact hread

theorem ofBinary_eq_trailing_iff {n : Nat} :
    ofBinary b = .error (.trailingBytes n) ↔
      ∃ form rest, b = form ++ rest ∧ IsNumeral form ∧ rest.length = n ∧ 0 < n := by
  constructor
  · intro h
    by_cases hbegins : ∃ form, IsNumeral form ∧ form <+: b
    · obtain ⟨form, hform, rest, rfl⟩ := hbegins
      rw [ofBinary_append hform] at h
      split at h
      · cases h
      · rename_i hrest
        cases h
        exact ⟨form, rest, rfl, hform, rfl, List.length_pos_iff.mpr hrest⟩
    · rw [ofBinary_of_none hbegins] at h
      cases h
  · rintro ⟨form, rest, rfl, hform, rfl, hpos⟩
    rw [ofBinary_append hform, if_neg (List.length_pos_iff.mp hpos)]

theorem ofBinary_eq_malformed_iff :
    ofBinary b = .error .malformedBinary ↔ ¬∃ form, IsNumeral form ∧ form <+: b := by
  constructor
  · rintro h ⟨form, hform, rest, rfl⟩
    rw [ofBinary_append hform] at h
    split at h <;> cases h
  · exact ofBinary_of_none

/-! ## Writing -/

theorem writes_toBinary (s : Sequence) : Varint.Writes s.current.toNat s.toBinary :=
  Varint.writes_encode (toNat_le_wordMax s.current)

/-- Whatever a sequence is taken up from is at least as long as what it is written down as. -/
theorem toBinary_length_le (h : ofBinary b = .ok s) : s.toBinary.length ≤ b.length := by
  obtain ⟨hform, hvalue⟩ := ofBinary_eq_ok_iff.mp h
  obtain ⟨hcomplete, hlength⟩ := isNumeral_iff.mp hform
  have hwrites : Varint.Writes s.current.toNat b := ⟨hcomplete, hlength, hvalue.symm⟩
  exact hwrites.length_encode_le

theorem eq_of_isPrefix_toBinary (h : s.toBinary <+: s'.toBinary) : s = s' := by
  have hsame := (writes_toBinary s).complete.eq_of_isPrefix (writes_toBinary s').complete h
  have hread := ofBinary_toBinary s
  rw [hsame, ofBinary_toBinary] at hread
  exact (Except.ok.inj hread).symm

/-- **The binary form of a sequence is read exactly.**  Bytes are taken up if they are one number: up to nine
bytes with the upper bit set and one more without it.  The sequence goes on from the sum of the lower seven
bits of each byte, each weighed by its place, as far as a word holds it.  Bytes behind one number are refused
and counted, and all other bytes are malformed.

A sequence is written down in ten bytes at most, from which it is taken up.  Nothing shorter is read as the
same sequence, and no two sequences have forms of which one begins the other. -/
theorem binary_form_exact :
    (∀ (b : Bytes) (s : Sequence), ofBinary b = .ok s ↔ IsNumeral b ∧ s.current.toNat =
      (∑ i : Fin b.length, (b.get i).toNat % 128 * 2 ^ (7 * i.val)) % 2 ^ 64) ∧
    (∀ (b : Bytes) (n : Nat), ofBinary b = .error (.trailingBytes n) ↔
      ∃ form rest, b = form ++ rest ∧ IsNumeral form ∧ rest.length = n ∧ 0 < n) ∧
    (∀ b : Bytes, ofBinary b = .error .malformedBinary ↔ ¬∃ form, IsNumeral form ∧ form <+: b) ∧
    (∀ s : Sequence, s.toBinary.length ≤ 10 ∧ ofBinary s.toBinary = .ok s ∧
      ∀ b, ofBinary b = .ok s → s.toBinary.length ≤ b.length) ∧
    ∀ s s' : Sequence, s ≠ s' → s.toBinary ≠ s'.toBinary ∧ ¬s.toBinary <+: s'.toBinary := by
  refine ⟨?_, fun b n => ofBinary_eq_trailing_iff, fun b => ofBinary_eq_malformed_iff, ?_, ?_⟩
  · intro b s
    rw [← Varint.value_eq_sum]
    exact ofBinary_eq_ok_iff
  · intro s
    exact ⟨(writes_toBinary s).length_le, ofBinary_toBinary s, fun b hread => toBinary_length_le hread⟩
  · intro s s' hne
    have hbegins : ¬s.toBinary <+: s'.toBinary := fun h => hne (eq_of_isPrefix_toBinary h)
    exact ⟨fun hsame => hbegins (hsame ▸ List.prefix_rfl), hbegins⟩

/-- Ten bytes may say more than 64 bits, and zero may be spelt in two; an eleventh byte is one too many. -/
example :
    (ofBinary [0xff, 0xff, 0xff, 0xff, 0xff, 0xff, 0xff, 0xff, 0xff, 0x7f]).toOption = some ⟨2 ^ 64 - 1⟩ ∧
      (ofBinary [0x80, 0x00]).toOption = some ⟨0⟩ ∧
        (ofBinary (List.replicate 10 0x80 ++ [0x00])).toOption = none := by
  decide +kernel

end Sequence

end RaftReplica
