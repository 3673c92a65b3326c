import RaftReplica.Failure
import RaftReplica.Json.Scan
import RaftReplica.Number.Radix
import RaftReplica.Wire.Varint

/-!
# Sequences

A sequence issues the numbers after its start, one by one; after the largest word it goes on with
zero. It can be written down in three forms, as a variable-length integer, as hexadecimal text and as
a JSON number, and taken up again from any of them.
-/

namespace RaftReplica

/-- A counter, given by the number issued last. -/
structure Sequence where
  current : UInt64
deriving DecidableEq, Repr

/-- Why a written sequence cannot be taken up. -/
inductive SequenceError where
  | trailingBytes (count : Nat)
  | malformedBinary
  | malformedText (cause : Radix.RadixError)
  | malformedJson
deriving DecidableEq, Repr

def SequenceError.message : SequenceError → String
  | trailingBytes count => s!"{count} trailing byte(s) after sequence varint"
  | malformedBinary =>
    "malformed sequence varint: failed to decode Protobuf message: invalid varint"
  | malformedText cause => s!"malformed sequence text: {cause.message}"
  | malformedJson => "malformed sequence number"

def SequenceError.kind : SequenceError → String
  | trailingBytes _ => "TrailingBytes"
  | malformedBinary => "MalformedBinary"
  | malformedText _ => "MalformedText"
  | malformedJson => "MalformedJson"

instance : Failure SequenceError := ⟨SequenceError.kind, SequenceError.message⟩

namespace Sequence

/-- The sequence whose first number is the one after `current`. -/
def start (current : UInt64) : Sequence := ⟨current⟩

/-- The sequence that starts with one. -/
def new : Sequence := start 0

/-- The next number and the sequence after it. -/
def next (s : Sequence) : UInt64 × Sequence :=
  (s.current + 1, ⟨s.current + 1⟩)

/-- The next `count` numbers and the sequence after them. -/
def take : Nat → Sequence → List UInt64 × Sequence
  | 0, s => ([], s)
  | count + 1, s =>
    let (first, s) := s.next
    let (rest, s) := take count s
    (first :: rest, s)

def toBinary (s : Sequence) : Bytes := Varint.encode s.current.toNat

def ofBinary (bytes : Bytes) : Except SequenceError Sequence :=
  match Varint.decode bytes with
  | none => .error .malformedBinary
  | some (n, []) => .ok (start n.toUInt64)
  | some (_, rest) => .error (.trailingBytes rest.length)

def toText (s : Sequence) : String := String.ofList (Radix.digits s.current.toNat)

def ofText (text : String) : Except SequenceError Sequence :=
  match Radix.read text.toList with
  | .ok n => .ok (start n.toUInt64)
  | .error cause => .error (.malformedText cause)

def toJson (s : Sequence) : Bytes := Json.decimalDigits s.current.toNat

def ofJson (bytes : Bytes) : Except SequenceError Sequence :=
  match Json.natUpTo? wordMax bytes with
  | some (n, rest) => if Json.isEnd rest then .ok (start n.toUInt64) else .error .malformedJson
  | none => .error .malformedJson

end Sequence

end RaftReplica
