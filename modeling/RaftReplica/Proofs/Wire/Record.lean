import Mathlib.Data.List.Forall2
import RaftReplica.Proofs.Wire.Varint
import RaftReplica.Wire.Record

/-!
# The forms of a record

Key, length and number of a record may each be written in more bytes than they need, so that a record has
many forms on the wire.  They are all read alike, and what follows them is left alone.

* `Record.Writes` says which bytes are a form of a record other than a group.
* `Record.Writes.decode_append` reads a record off the front, `Record.decodeAll_flatten` reads one record
  after the other to the end.
* `Record.Valid.writes_encode` finds the form that a record is written in among them.
-/

namespace RaftReplica.Wire

/-- The bytes are a form of the key of a field. -/
structure WritesKey (field : Nat) (type : WireType) (key : Bytes) : Prop where
  writes : Varint.Writes (field * 8 + type.code) key
  pos : 0 < field
  lt : field < 2 ^ 29

/-- What a record can carry besides a group: numbers and lengths that fit words, and as many bytes as there
have to be. -/
def Payload.Fits : Payload → Prop
  | .varint n => n ≤ wordMax
  | .fixed64 bytes => bytes.length = 8
  | .delimited bytes => bytes.length ≤ wordMax
  | .group => False
  | .fixed32 bytes => bytes.length = 4

namespace Record

/-- The record has a field number of its own and carries what can be written. -/
structure Valid (record : Record) : Prop where
  pos : 0 < record.field
  lt : record.field < 2 ^ 29
  fits : record.payload.Fits

/-- The bytes are a form of the record, which is no group. -/
inductive Writes : Record → Bytes → Prop where
  | varint {field n : Nat} {key number : Bytes} (writesKey : WritesKey field .varint key)
    (writes : Varint.Writes n number) : Writes ⟨field, .varint n⟩ (key ++ number)
  | fixed64 {field : Nat} {key bytes : Bytes} (writesKey : WritesKey field .fixed64 key)
    (length_eq : bytes.length = 8) : Writes ⟨field, .fixed64 bytes⟩ (key ++ bytes)
  | delimited {field : Nat} {key length bytes : Bytes} (writesKey : WritesKey field .delimited key)
    (writes : Varint.Writes bytes.length length) :
    Writes ⟨field, .delimited bytes⟩ (key ++ length ++ bytes)
  | fixed32 {field : Nat} {key bytes : Bytes} (writesKey : WritesKey field .fixed32 key)
    (length_eq : bytes.length = 4) : Writes ⟨field, .fixed32 bytes⟩ (key ++ bytes)

end Record

/-! ## Keys -/

theorem WireType.code_lt (type : WireType) : type.code < 8 := by
  cases type <;> decide

theorem WireType.ofCode?_code (type : WireType) : ofCode? type.code = some type := by
  cases type <;> rfl

theorem WritesKey.decodeKey_append {field : Nat} {type : WireType} {key : Bytes}
    (h : WritesKey field type key) (rest : Bytes) :
    decodeKey (key ++ rest) = some (field, type, rest) := by
  have hcode := type.code_lt
  have hfield : (field * 8 + type.code) / 8 = field := by omega
  have htype : (field * 8 + type.code) % 8 = type.code := by omega
  have hvalid : ¬(2 ^ 32 ≤ field * 8 + type.code ∨ field = 0) := by
    have := h.pos
    have := h.lt
    omega
  simp only [decodeKey, h.writes.decode_append, hfield, htype, type.ofCode?_code, Option.bind_eq_bind,
    Option.bind_some, if_neg hvalid, Option.pure_def]

theorem writesKey_encodeKey {field : Nat} (type : WireType) (hpos : 0 < field) (hlt : field < 2 ^ 29) :
    WritesKey field type (encodeKey field type) := by
  have hcode := type.code_lt
  exact ⟨Varint.writes_encode (by simp only [wordMax]; omega), hpos, hlt⟩

/-! ## Records -/

theorem takeExactly?_append {count : Nat} {bytes : Bytes} (h : bytes.length = count) (rest : Bytes) :
    takeExactly? count (bytes ++ rest) = some (bytes, rest) := by
  rw [takeExactly?, if_pos (by rw [List.length_append]; omega), ← h, List.take_left, List.drop_left]

namespace Record

variable {record : Record} {form : Bytes}

/-- Whatever form a record is written in, it is read off the front of what follows. -/
theorem Writes.decode_append (h : Writes record form) (depth : Nat) (rest : Bytes) :
    decode (depth + 1) (form ++ rest) = some (record, rest) := by
  cases h with
  | varint writesKey writes =>
    simp [decode, List.append_assoc, writesKey.decodeKey_append, decodePayload, writes.decode_append]
  | fixed64 writesKey length_eq =>
    simp [decode, List.append_assoc, writesKey.decodeKey_append, decodePayload,
      takeExactly?_append length_eq]
  | delimited writesKey writes =>
    simp [decode, List.append_assoc, writesKey.decodeKey_append, decodePayload, writes.decode_append,
      takeExactly?_append rfl]
  | fixed32 writesKey length_eq =>
    simp [decode, List.append_assoc, writesKey.decodeKey_append, decodePayload,
      takeExactly?_append length_eq]

theorem Writes.length_pos (h : Writes record form) : 0 < form.length := by
  cases h with
  | varint writesKey | fixed64 writesKey | delimited writesKey | fixed32 writesKey =>
    have := writesKey.writes.complete.length_pos
    simp only [List.length_append]
    omega

/-- Records are read one after the other up to the end, each in whatever form it is written. -/
theorem decodeAll_flatten {records : List Record} {forms : List Bytes}
    (h : List.Forall₂ Writes records forms) (depth : Nat) :
    decodeAll (depth + 1) forms.flatten = some records := by
  have hwithin : ∀ fuel, forms.flatten.length ≤ fuel →
      decodeWithin (depth + 1) fuel forms.flatten = some records := by
    induction h with
    | nil =>
      intro fuel _
      cases fuel <;> rfl
    | @cons record form records forms hform _ ih =>
      intro fuel hfuel
      have hpos := hform.length_pos
      rw [List.flatten_cons, List.length_append] at hfuel
      obtain ⟨fuel, rfl⟩ := Nat.exists_eq_succ_of_ne_zero (by omega : fuel ≠ 0)
      obtain ⟨byte, tail, hbytes⟩ := List.exists_cons_of_length_pos hpos
      have hread := hform.decode_append depth forms.flatten
      rw [hbytes, List.cons_append] at hread
      rw [List.flatten_cons, hbytes, List.cons_append, decodeWithin]
      · simp [hread, ih fuel (by omega)]
      · simp
  exact hwithin _ (Nat.le_refl _)

/-- The bytes that a record is written in are a form of it. -/
theorem Valid.writes_encode {record : Record} (h : record.Valid) : Writes record record.encode := by
  obtain ⟨field, payload⟩ := record
  cases payload with
  | varint n => exact .varint (writesKey_encodeKey _ h.pos h.lt) (Varint.writes_encode h.fits)
  | fixed64 bytes => exact .fixed64 (writesKey_encodeKey _ h.pos h.lt) h.fits
  | delimited bytes => exact .delimited (writesKey_encodeKey _ h.pos h.lt) (Varint.writes_encode h.fits)
  | group => exact h.fits.elim
  | fixed32 bytes => exact .fixed32 (writesKey_encodeKey _ h.pos h.lt) h.fits

theorem writes_map_encode {records : List Record} (h : ∀ record ∈ records, record.Valid) :
    List.Forall₂ Writes records (records.map encode) := by
  rw [List.forall₂_map_right_iff, List.forall₂_same]
  exact fun record hmem => (h record hmem).writes_encode

end Record

end RaftReplica.Wire
