import RaftReplica.Number.Word
import RaftReplica.Wire.Varint

/-!
# The forms of a number

A number may be written in more bytes than it needs.  What counts as one number, and which number that is,
can be said without a reader: the bytes that go on are those with the upper bit set, and the lower seven bits
of all bytes make up the value.

* `Complete` says which bytes are one number, `value` which number they are.
* `decodeWithin_eq_some_iff`: a reader takes a number off the front exactly where a complete one of so many
  bytes stands.
* `Writes` is what counts as a form of a 64-bit number, `Writes.decode_append` reads any form back, and
  `writes_encode` finds the shortest form among them, as `Writes.length_encode_le` says.
* `complete_iff` says of all bytes at once what makes them complete, and `Complete.eq_of_isPrefix` that no
  complete number begins another.
-/

namespace RaftReplica.Varint

/-- The bytes of one number: all but the last have their upper bit set. -/
inductive Complete : Bytes → Prop where
  | last {byte : UInt8} (low : byte < 128) : Complete [byte]
  | more {byte : UInt8} {rest : Bytes} (high : ¬byte < 128) (complete : Complete rest) :
    Complete (byte :: rest)

/-- The number that the lower seven bits of the bytes make up, the lowest byte first. -/
def value : Bytes → Nat
  | [] => 0
  | byte :: rest => byte.toNat % 128 + 128 * value rest

/-- The bytes are a form of the 64-bit number. -/
structure Writes (n : Nat) (form : Bytes) : Prop where
  complete : Complete form
  length_le : form.length ≤ maxLength
  value_eq : value form % 2 ^ 64 = n

theorem Complete.length_pos {form : Bytes} (h : Complete form) : 0 < form.length := by
  cases h <;> exact Nat.succ_pos _

/-- Said of all bytes at once: those with the upper bit set come first, and one without it ends them. -/
theorem complete_iff {form : Bytes} :
    Complete form ↔
      ∃ upper last, form = upper ++ [last] ∧ (∀ byte ∈ upper, 128 ≤ byte) ∧ last < 128 := by
  constructor
  · intro h
    induction h with
    | @last byte low => exact ⟨[], byte, rfl, nofun, low⟩
    | @more byte rest high _ ih =>
      obtain ⟨upper, last, rfl, hupper, hlast⟩ := ih
      refine ⟨byte :: upper, last, rfl, ?_, hlast⟩
      intro other hother
      obtain rfl | hother := List.mem_cons.mp hother
      · exact UInt8.not_lt.mp high
      · exact hupper other hother
  · rintro ⟨upper, last, rfl, hupper, hlast⟩
    induction upper with
    | nil => exact .last hlast
    | cons byte upper ih =>
      have hhigh : ¬byte < 128 := UInt8.not_lt.mpr (hupper byte List.mem_cons_self)
      exact .more hhigh (ih fun other hother => hupper other (List.mem_cons_of_mem _ hother))

/-- A number that is complete goes on nowhere. -/
theorem Complete.eq_of_isPrefix {form other : Bytes} (h : Complete form) (hother : Complete other)
    (hbegins : form <+: other) : form = other := by
  induction h generalizing other with
  | last low =>
    cases hother with
    | last => exact List.singleton_inj.mpr (List.cons_prefix_cons.mp hbegins).1
    | more high => exact absurd ((List.cons_prefix_cons.mp hbegins).1 ▸ low) high
  | more high _ ih =>
    cases hother with
    | last low => exact absurd ((List.cons_prefix_cons.mp hbegins).1 ▸ low) high
    | more _ complete =>
      obtain ⟨rfl, hrest⟩ := List.cons_prefix_cons.mp hbegins
      rw [ih complete hrest]

theorem value_lt (form : Bytes) : value form < 128 ^ form.length := by
  induction form with
  | nil => exact Nat.one_pos
  | cons byte rest ih =>
    have hlow : byte.toNat % 128 < 128 := Nat.mod_lt _ (by decide)
    rw [value, List.length_cons, Nat.pow_succ']
    omega

theorem low_bits_of_lt {byte : UInt8} (h : byte < 128) : byte.toNat % 128 = byte.toNat := by
  have := UInt8.lt_iff_toNat_lt.mp h
  simp only [UInt8.reduceToNat] at this
  omega

theorem low_bits_of_not_lt {byte : UInt8} (h : ¬byte < 128) : byte.toNat % 128 = byte.toNat - 128 := by
  have := UInt8.le_iff_toNat_le.mp (UInt8.not_lt.mp h)
  have := byte.toNat_lt
  simp only [UInt8.reduceToNat] at *
  omega

/-! ## Reading -/

theorem Complete.decodeWithin_append {room : Nat} {form : Bytes} (h : Complete form)
    (hroom : form.length ≤ room) (rest : Bytes) :
    decodeWithin room (form ++ rest) = some (value form, rest) := by
  induction h generalizing room with
  | last low =>
    obtain ⟨room, rfl⟩ := Nat.exists_eq_add_of_le' hroom
    simp [decodeWithin, value, low, low_bits_of_lt low]
  | more high _ ih =>
    cases room with
    | zero => cases hroom
    | succ room =>
      simp [decodeWithin, value, high, low_bits_of_not_lt high, ih (Nat.le_of_succ_le_succ hroom)]

/-- A number is read off the front exactly if a complete one of at most so many bytes stands there. -/
theorem decodeWithin_eq_some_iff {room n : Nat} {bytes rest : Bytes} :
    decodeWithin room bytes = some (n, rest) ↔
      ∃ form, Complete form ∧ form.length ≤ room ∧ bytes = form ++ rest ∧ n = value form := by
  constructor
  · intro h
    fun_induction decodeWithin room bytes generalizing n with
    | case1 | case2 => cases h
    | case3 room byte tail low =>
      cases h
      exact ⟨[byte], .last low, Nat.succ_le_succ (Nat.zero_le _), rfl, by
        simp [value, low_bits_of_lt low]⟩
    | case4 room byte tail high ih =>
      simp only [Option.map_eq_some_iff, Prod.exists, Prod.mk.injEq] at h
      obtain ⟨m, rest', hm, rfl, rfl⟩ := h
      obtain ⟨form, complete, hroom, rfl, rfl⟩ := ih hm
      exact ⟨byte :: form, .more high complete, Nat.succ_le_succ hroom, rfl, by
        simp [value, low_bits_of_not_lt high]⟩
  · rintro ⟨form, complete, hroom, rfl, rfl⟩
    exact complete.decodeWithin_append hroom rest

/-- Whatever form a number is written in, it is read off the front of what follows. -/
theorem Writes.decode_append {n : Nat} {form : Bytes} (h : Writes n form) (rest : Bytes) :
    decode (form ++ rest) = some (n, rest) := by
  simp [decode, h.complete.decodeWithin_append h.length_le, h.value_eq]

/-! ## Writing -/

theorem complete_encode (n : Nat) : Complete (encode n) := by
  fun_induction encode n with
  | case1 n h =>
    refine .last (UInt8.lt_iff_toNat_lt.mpr ?_)
    simp only [Nat.toUInt8_eq, UInt8.toNat_ofNat', UInt8.reduceToNat]
    omega
  | case2 n h ih =>
    refine .more (fun hlow => ?_) ih
    have := UInt8.lt_iff_toNat_lt.mp hlow
    simp only [Nat.toUInt8_eq, UInt8.toNat_ofNat', UInt8.reduceToNat] at this
    omega

theorem value_encode (n : Nat) : value (encode n) = n := by
  fun_induction encode n with
  | case1 n h =>
    simp only [value, Nat.toUInt8_eq, UInt8.toNat_ofNat']
    omega
  | case2 n h ih =>
    simp only [value, ih, Nat.toUInt8_eq, UInt8.toNat_ofNat']
    omega

/-- Every further byte has room for seven more bits. -/
theorem length_encode_le {n : Nat} (count : Nat) (h : n < 128 ^ (count + 1)) :
    (encode n).length ≤ count + 1 := by
  induction count generalizing n with
  | zero =>
    rw [encode, if_pos (by simpa using h)]
    exact Nat.le_refl 1
  | succ count ih =>
    rw [encode]
    split
    · exact Nat.succ_le_succ (Nat.zero_le _)
    · exact Nat.succ_le_succ (ih (Nat.div_lt_of_lt_mul (by rwa [← Nat.pow_succ'])))

/-- The bytes that a 64-bit number is written in are a form of it. -/
theorem writes_encode {n : Nat} (h : n ≤ wordMax) : Writes n (encode n) where
  complete := complete_encode n
  length_le := length_encode_le 9 (Nat.lt_of_le_of_lt h (by decide))
  value_eq := by rw [value_encode, Nat.mod_eq_of_lt (Nat.lt_of_le_of_lt h (by decide))]

/-- No form of a number is shorter than the one that it is written in. -/
theorem Writes.length_encode_le {n : Nat} {form : Bytes} (h : Writes n form) :
    (encode n).length ≤ form.length := by
  obtain ⟨count, hcount⟩ := Nat.exists_eq_succ_of_ne_zero (Nat.ne_of_gt h.complete.length_pos)
  have hfits : n < 128 ^ (count + 1) := by
    have hlt := value_lt form
    have hle : n ≤ value form := h.value_eq ▸ Nat.mod_le _ _
    rw [hcount] at hlt
    exact Nat.lt_of_le_of_lt hle hlt
  rw [hcount]
  exact Varint.length_encode_le count hfits

end RaftReplica.Varint
