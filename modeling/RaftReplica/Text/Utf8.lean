import RaftReplica.Bytes

/-!
# Flaws in UTF-8

Where bytes stop being UTF-8. A character is one byte or a lead byte with up to three more, each from
a range that the lead byte fixes. A flaw starts where the first character that is none starts, and is
as long as the part of it that still could have been one; the bytes may also just end too early.
-/

namespace RaftReplica.Text.Utf8

/-- The first flaw of some bytes. -/
structure Flaw where
  position : Nat
  /-- How many bytes it takes, unless the bytes end in the middle of a character. -/
  length : Option Nat
deriving DecidableEq, Repr

def Flaw.message (flaw : Flaw) : String :=
  match flaw.length with
  | some length => s!"invalid utf-8 sequence of {length} bytes from index {flaw.position}"
  | none => s!"incomplete utf-8 byte sequence from index {flaw.position}"

/-- The range of a byte behind a lead byte that asks for nothing special. -/
def anyTail : UInt8 × UInt8 := (0x80, 0xBF)

/-- The ranges of the bytes that follow a lead byte, or `none` if a character cannot start so. -/
def tailOf? (lead : UInt8) : Option (List (UInt8 × UInt8)) :=
  if lead < 0x80 then some []
  else if lead < 0xC2 then none
  else if lead < 0xE0 then some [anyTail]
  else if lead = 0xE0 then some [(0xA0, 0xBF), anyTail]
  else if lead = 0xED then some [(0x80, 0x9F), anyTail]
  else if lead < 0xF0 then some [anyTail, anyTail]
  else if lead = 0xF0 then some [(0x90, 0xBF), anyTail, anyTail]
  else if lead < 0xF4 then some [anyTail, anyTail, anyTail]
  else if lead = 0xF4 then some [(0x80, 0x8F), anyTail, anyTail]
  else none

/-- Looks for a flaw. The present character starts at `start`, `taken` of its bytes have been read and
`tail` are the ranges of the others. -/
def flawFrom : (start taken : Nat) → (tail : List (UInt8 × UInt8)) → Bytes → Option Flaw
  | _, _, [], [] => none
  | start, _, _ :: _, [] => some ⟨start, none⟩
  | start, _, [], lead :: rest =>
    match tailOf? lead with
    | none => some ⟨start, some 1⟩
    | some [] => flawFrom (start + 1) 0 [] rest
    | some tail => flawFrom start 1 tail rest
  | start, taken, (first, last) :: tail, b :: rest =>
    if first ≤ b ∧ b ≤ last then
      if tail = [] then flawFrom (start + taken + 1) 0 [] rest
      else flawFrom start (taken + 1) tail rest
    else some ⟨start, some taken⟩

/-- The first flaw, if there is one. -/
def flaw? (bytes : Bytes) : Option Flaw := flawFrom 0 0 [] bytes

end RaftReplica.Text.Utf8
