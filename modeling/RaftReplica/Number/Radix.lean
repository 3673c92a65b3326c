import RaftReplica.Number.Word

/-!
# Numbers in base sixteen

A 64-bit number is written with the lowercase digits it needs. A reader takes an optional plus sign,
digits of either case and any number of leading zeros. What it meets first decides the error: a
character that is no digit, or a digit that takes the number past a word.
-/

namespace RaftReplica.Radix

/-- Why a text is no number. -/
inductive RadixError where
  | empty
  | invalidDigit
  | tooLarge
deriving DecidableEq, Repr

def RadixError.message : RadixError → String
  | empty => "cannot parse integer from empty string"
  | invalidDigit => "invalid digit found in string"
  | tooLarge => "number too large to fit in target type"

/-- The digit for a value below sixteen. -/
def digitChar (value : Nat) : Char :=
  if value < 10 then Char.ofNat ('0'.toNat + value) else Char.ofNat ('a'.toNat + (value - 10))

/-- The value of a digit of either case. -/
def digitValue? (c : Char) : Option Nat :=
  if '0' ≤ c ∧ c ≤ '9' then some (c.toNat - '0'.toNat)
  else if 'a' ≤ c ∧ c ≤ 'f' then some (c.toNat - 'a'.toNat + 10)
  else if 'A' ≤ c ∧ c ≤ 'F' then some (c.toNat - 'A'.toNat + 10)
  else none

/-- The digits of a number. -/
def digits (n : Nat) : List Char :=
  if n < 16 then [digitChar n] else digits (n / 16) ++ [digitChar (n % 16)]

/-- The number that stands after `value` when the digits are read on from there. -/
def readDigits (value : Nat) : List Char → Except RadixError Nat
  | [] => .ok value
  | c :: rest =>
    match digitValue? c with
    | none => .error .invalidDigit
    | some digit =>
      if value * 16 + digit ≤ wordMax then readDigits (value * 16 + digit) rest
      else .error .tooLarge

/-- Reads a whole text as a number. -/
def read : List Char → Except RadixError Nat
  | [] => .error .empty
  | ['+'] => .error .invalidDigit
  | '+' :: rest => readDigits 0 rest
  | text => readDigits 0 text

end RaftReplica.Radix
