import RaftReplica.Bytes

/-!
# Strings in JSON

A string is kept as the bytes of its UTF-8 form. Only the quotation mark, the backslash and the
bytes below the blank are escaped, so that escaping works byte by byte. A reader also takes the other
escapes that the format allows, four hexadecimal digits for any character among them.
-/

namespace RaftReplica.Json

/-- The byte of an ASCII character. -/
def ascii (c : Char) : UInt8 := c.toNat.toUInt8

/-- The bytes of an ASCII text. -/
def asciiBytes (s : String) : Bytes := s.toList.map ascii

/-- The hexadecimal digit for the lower half of a byte. -/
def hexDigit (n : Nat) : UInt8 :=
  if n < 10 then (48 + n).toUInt8 else (87 + n).toUInt8

/-- A byte as it stands between the quotation marks. -/
def escapeByte (b : UInt8) : Bytes :=
  if b = ascii '"' then [ascii '\\', ascii '"']
  else if b = ascii '\\' then [ascii '\\', ascii '\\']
  else if b = 8 then [ascii '\\', ascii 'b']
  else if b = 9 then [ascii '\\', ascii 't']
  else if b = 10 then [ascii '\\', ascii 'n']
  else if b = 12 then [ascii '\\', ascii 'f']
  else if b = 13 then [ascii '\\', ascii 'r']
  else if b < 32 then
    [ascii '\\', ascii 'u', ascii '0', ascii '0', hexDigit (b.toNat / 16), hexDigit (b.toNat % 16)]
  else [b]

/-- The string with its quotation marks. -/
def quoteBytes (content : Bytes) : Bytes :=
  ascii '"' :: content.flatMap escapeByte ++ [ascii '"']

def quote (s : String) : Bytes := quoteBytes (Bytes.ofText s)

/-- The value of a hexadecimal digit of either case. -/
def hexValue? (b : UInt8) : Option Nat :=
  if 48 ≤ b ∧ b ≤ 57 then some (b.toNat - 48)
  else if 97 ≤ b ∧ b ≤ 102 then some (b.toNat - 87)
  else if 65 ≤ b ∧ b ≤ 70 then some (b.toNat - 55)
  else none

/-- The number written in four hexadecimal digits. -/
def hexUnit? (a b c d : UInt8) : Option Nat := do
  let a ← hexValue? a
  let b ← hexValue? b
  let c ← hexValue? c
  let d ← hexValue? d
  return ((a * 16 + b) * 16 + c) * 16 + d

/-- The UTF-8 form of a character given by its number. -/
def utf8 (codePoint : Nat) : Bytes := Bytes.ofText (Char.ofNat codePoint).toString

/-- The byte that a one-letter escape stands for. -/
def escaped? (letter : UInt8) : Option UInt8 :=
  if letter = ascii '"' then some (ascii '"')
  else if letter = ascii '\\' then some (ascii '\\')
  else if letter = ascii '/' then some (ascii '/')
  else if letter = ascii 'b' then some 8
  else if letter = ascii 'f' then some 12
  else if letter = ascii 'n' then some 10
  else if letter = ascii 'r' then some 13
  else if letter = ascii 't' then some 9
  else none

/-- Reads the content of a string up to and with its closing quotation mark. Half a surrogate pair
is refused. -/
def readContent : Bytes → Option (Bytes × Bytes)
  | 92 :: 117 :: a :: b :: c :: d :: rest => do
    let unit ← hexUnit? a b c d
    if 0xDC00 ≤ unit ∧ unit ≤ 0xDFFF then none
    else if 0xD800 ≤ unit ∧ unit ≤ 0xDBFF then
      match rest with
      | 92 :: 117 :: a :: b :: c :: d :: rest => do
        let low ← hexUnit? a b c d
        if 0xDC00 ≤ low ∧ low ≤ 0xDFFF then
          let (content, rest) ← readContent rest
          return (utf8 (0x10000 + (unit - 0xD800) * 0x400 + (low - 0xDC00)) ++ content, rest)
        else none
      | _ => none
    else
      let (content, rest) ← readContent rest
      return (utf8 unit ++ content, rest)
  | 92 :: letter :: rest => do
    let byte ← escaped? letter
    let (content, rest) ← readContent rest
    return (byte :: content, rest)
  | b :: rest =>
    if b = ascii '"' then some ([], rest)
    else if b < 32 ∨ b = ascii '\\' then none
    else (readContent rest).map fun (content, rest) => (b :: content, rest)
  | [] => none

/-- Skips the content of a string whose value is of no interest: escapes have to be well formed,
but need not stand for characters. -/
def skipContent : Bytes → Option Bytes
  | 92 :: 117 :: a :: b :: c :: d :: rest =>
    if (hexUnit? a b c d).isSome then skipContent rest else none
  | 92 :: letter :: rest => if (escaped? letter).isSome then skipContent rest else none
  | b :: rest =>
    if b = ascii '"' then some rest
    else if b < 32 ∨ b = ascii '\\' then none
    else skipContent rest
  | [] => none

end RaftReplica.Json
