import RaftReplica.Bytes
import RaftReplica.Number.Word

/-!
# Variable-length integers

A 64-bit number is written seven bits to a byte, the lowest first, with the upper bit set on every
byte but the last. A reader takes at most ten bytes; what they say beyond 64 bits is dropped.
-/

namespace RaftReplica

namespace Varint

/-- The most bytes that a number may take. -/
def maxLength : Nat := 10

/-- The bytes of a number. -/
def encode (n : Nat) : Bytes :=
  if n < 128 then [n.toUInt8]
  else (n % 128 + 128).toUInt8 :: encode (n / 128)

/-- Reads a number of at most `room` bytes, without a bound on its value. -/
def decodeWithin : (room : Nat) → Bytes → Option (Nat × Bytes)
  | 0, _ => none
  | _ + 1, [] => none
  | room + 1, byte :: rest =>
    if byte < 128 then some (byte.toNat, rest)
    else (decodeWithin room rest).map fun (n, rest) => (byte.toNat - 128 + 128 * n, rest)

/-- Reads a 64-bit number off the front of the bytes. -/
def decode (bytes : Bytes) : Option (Nat × Bytes) :=
  (decodeWithin maxLength bytes).map fun (n, rest) => (n % 2 ^ 64, rest)

theorem decodeWithin_length {room n : Nat} {bytes rest : Bytes}
    (h : decodeWithin room bytes = some (n, rest)) : rest.length < bytes.length := by
  induction room generalizing bytes n with
  | zero => simp [decodeWithin] at h
  | succ room ih =>
    cases bytes with
    | nil => simp [decodeWithin] at h
    | cons byte tail =>
      simp only [decodeWithin] at h
      split at h
      · simp only [Option.some.injEq, Prod.mk.injEq] at h
        simp [h.2]
      · simp only [Option.map_eq_some_iff, Prod.mk.injEq, Prod.exists] at h
        obtain ⟨m, tail', hd, _, rfl⟩ := h
        have := ih hd
        simp only [List.length_cons]; omega

theorem decode_length {n : Nat} {bytes rest : Bytes} (h : decode bytes = some (n, rest)) :
    rest.length < bytes.length := by
  simp only [decode, Option.map_eq_some_iff, Prod.mk.injEq, Prod.exists] at h
  obtain ⟨m, tail, hd, _, rfl⟩ := h
  exact decodeWithin_length hd

end Varint

end RaftReplica
