import RaftReplica.Bytes
import RaftReplica.Number.Radix

/-!
# Bytes as text

Raw data is shown to people as two lowercase hexadecimal digits a byte. A reader takes digits of
either case.
-/

namespace RaftReplica.Bytes

/-- The two digits of a byte. -/
def byteDigits (b : UInt8) : List Char :=
  [Radix.digitChar (b.toNat / 16), Radix.digitChar (b.toNat % 16)]

/-- The bytes as digits. -/
def toHex (bytes : Bytes) : String := String.ofList (bytes.flatMap byteDigits)

/-- The bytes that digits stand for, two and two. -/
def ofDigits? : List Char → Option Bytes
  | [] => some []
  | high :: low :: rest => do
    let high ← Radix.digitValue? high
    let low ← Radix.digitValue? low
    let bytes ← ofDigits? rest
    return (high * 16 + low).toUInt8 :: bytes
  | [_] => none

/-- The bytes of a text of digits. -/
def ofHex? (text : String) : Option Bytes := ofDigits? text.toList

end RaftReplica.Bytes
