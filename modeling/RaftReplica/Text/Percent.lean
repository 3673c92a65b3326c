import RaftReplica.Bytes
import RaftReplica.Number.Radix

/-!
# Percent encoding

A percent sign with two hexadecimal digits of either case stands for one byte. A percent sign without
them stands for itself.
-/

namespace RaftReplica.Text.Percent

/-- The value of a byte that is a hexadecimal digit. -/
def digit? (b : UInt8) : Option Nat := Radix.digitValue? (Char.ofNat b.toNat)

/-- The bytes that a text stands for. -/
def decode : Bytes → Bytes
  | 37 :: high :: low :: rest =>
    match digit? high, digit? low with
    | some h, some l => (h * 16 + l).toUInt8 :: decode rest
    | _, _ => 37 :: decode (high :: low :: rest)
  | b :: rest => b :: decode rest
  | [] => []
termination_by bytes => bytes.length

/-- A text without a percent sign stands for itself. -/
theorem decode_eq_self {bytes : Bytes} (h : 37 ∉ bytes) : decode bytes = bytes := by
  fun_induction decode bytes with
  | case1 high low rest hi lo _ _ ih => simp at h
  | case2 high low rest _ ih => simp at h
  | case3 b rest _ ih => rw [ih fun hb => h (List.mem_cons_of_mem b hb)]
  | case4 => rfl

end RaftReplica.Text.Percent
