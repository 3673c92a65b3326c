import RaftReplica.Wire.Varint

/-!
# Tagged records

A message on the wire is a sequence of records, each with a field number and a payload whose form the
record's key names. Keys fit 32 bits and field numbers start at one. A reader keeps every payload but
that of a group, which it passes over up to its end; groups nest only so deep.
-/

namespace RaftReplica.Wire

/-- What a record carries. -/
inductive Payload where
  | varint (n : Nat)
  | fixed64 (bytes : Bytes)
  | delimited (bytes : Bytes)
  /-- A group, whose records are not kept. -/
  | group
  | fixed32 (bytes : Bytes)
deriving DecidableEq, Repr

structure Record where
  field : Nat
  payload : Payload
deriving DecidableEq, Repr

/-- The forms of payload that a key can name. -/
inductive WireType where
  | varint
  | fixed64
  | delimited
  | groupStart
  | groupEnd
  | fixed32
deriving DecidableEq, Repr

namespace WireType

def code : WireType → Nat
  | varint => 0
  | fixed64 => 1
  | delimited => 2
  | groupStart => 3
  | groupEnd => 4
  | fixed32 => 5

def ofCode? : Nat → Option WireType
  | 0 => some varint
  | 1 => some fixed64
  | 2 => some delimited
  | 3 => some groupStart
  | 4 => some groupEnd
  | 5 => some fixed32
  | _ => none

end WireType

def encodeKey (field : Nat) (type : WireType) : Bytes := Varint.encode (field * 8 + type.code)

/-- Reads a record's key. -/
def decodeKey (bytes : Bytes) : Option (Nat × WireType × Bytes) := do
  let (key, rest) ← Varint.decode bytes
  if 2 ^ 32 ≤ key ∨ key / 8 = 0 then none
  else
    let type ← WireType.ofCode? (key % 8)
    return (key / 8, type, rest)

namespace Record

/-- The bytes of a record. A group is written empty. -/
def encode (record : Record) : Bytes :=
  match record.payload with
  | .varint n => encodeKey record.field .varint ++ Varint.encode n
  | .fixed64 bytes => encodeKey record.field .fixed64 ++ bytes
  | .delimited bytes => encodeKey record.field .delimited ++ Varint.encode bytes.length ++ bytes
  | .group => encodeKey record.field .groupStart ++ encodeKey record.field .groupEnd
  | .fixed32 bytes => encodeKey record.field .fixed32 ++ bytes

def encodeAll (records : List Record) : Bytes := records.flatMap encode

end Record

/-- Takes that many bytes off the front, if there are as many. -/
def takeExactly? (count : Nat) (bytes : Bytes) : Option (Bytes × Bytes) :=
  if count ≤ bytes.length then some (bytes.take count, bytes.drop count) else none

mutual

/-- Reads the payload that a key announces. `depth` is how many groups may still open. -/
def decodePayload : (fuel depth field : Nat) → WireType → Bytes → Option (Payload × Bytes)
  | 0, _, _, _, _ => none
  | _ + 1, 0, _, _, _ => none
  | fuel + 1, depth + 1, field, type, bytes =>
    match type with
    | .varint => (Varint.decode bytes).map fun (n, rest) => (.varint n, rest)
    | .fixed64 => (takeExactly? 8 bytes).map fun (taken, rest) => (.fixed64 taken, rest)
    | .delimited => do
      let (length, rest) ← Varint.decode bytes
      let (taken, rest) ← takeExactly? length rest
      return (.delimited taken, rest)
    | .groupStart => (skipGroup fuel depth field bytes).map fun rest => (.group, rest)
    | .groupEnd => none
    | .fixed32 => (takeExactly? 4 bytes).map fun (taken, rest) => (.fixed32 taken, rest)

/-- Passes over the records of a group and its end. -/
def skipGroup : (fuel depth field : Nat) → Bytes → Option Bytes
  | 0, _, _, _ => none
  | fuel + 1, depth, field, bytes => do
    let (inner, type, rest) ← decodeKey bytes
    if type = .groupEnd then
      if inner = field then some rest else none
    else
      let (_, rest) ← decodePayload fuel depth inner type rest
      skipGroup fuel depth field rest

end

namespace Record

/-- Reads a record off the front of the bytes. -/
def decode (depth : Nat) (bytes : Bytes) : Option (Record × Bytes) := do
  let (field, type, rest) ← decodeKey bytes
  let (payload, rest) ← decodePayload (2 * rest.length + 2) depth field type rest
  return (⟨field, payload⟩, rest)

/-- Reads records up to the end of the bytes. -/
def decodeWithin (depth : Nat) : (fuel : Nat) → Bytes → Option (List Record)
  | _, [] => some []
  | 0, _ :: _ => none
  | fuel + 1, bytes => do
    let (record, rest) ← decode depth bytes
    let records ← decodeWithin depth fuel rest
    return record :: records

/-- Reads all the bytes as records. Each takes at least one byte. -/
def decodeAll (depth : Nat) (bytes : Bytes) : Option (List Record) :=
  decodeWithin depth bytes.length bytes

end Record

end RaftReplica.Wire
