import RaftReplica.Json.Text
import RaftReplica.Number.Word

/-!
# Reading JSON

Each reader takes a value off the front of the bytes and returns what follows it. Blanks are skipped
before every value and every mark. `skipValue` passes over a value of any kind and any depth without
keeping it.
-/

namespace RaftReplica.Json

def isBlank (b : UInt8) : Bool := b = 32 || b = 9 || b = 10 || b = 13

def skipBlank (bytes : Bytes) : Bytes := bytes.dropWhile isBlank

def isDigit (b : UInt8) : Bool := 48 ≤ b && b ≤ 57

/-- Takes a mark off the front, if it comes next. -/
def expect? (mark : Char) (bytes : Bytes) : Option Bytes :=
  match skipBlank bytes with
  | b :: rest => if b = ascii mark then some rest else none
  | [] => none

/-- Takes a word of ASCII letters off the front, without skipping blanks. -/
def word? (letters : Bytes) (bytes : Bytes) : Option Bytes :=
  if letters.isPrefixOf bytes then some (bytes.drop letters.length) else none

/-- Takes the digits of a whole number off the front; more than one may not start with zero. -/
def wholeDigits? (bytes : Bytes) : Option (Bytes × Bytes) :=
  let digits := bytes.takeWhile isDigit
  match digits with
  | [] => none
  | 48 :: _ :: _ => none
  | _ => some (digits, bytes.dropWhile isDigit)

/-- The number that ASCII digits stand for. -/
def digitsValue (digits : Bytes) : Nat :=
  digits.foldl (fun n b => n * 10 + (b.toNat - 48)) 0

/-- Reads a whole number from zero up to `max`. One with a fraction or an exponent is refused, even
if its value is whole. -/
def natUpTo? (max : Nat) (bytes : Bytes) : Option (Nat × Bytes) := do
  let (digits, rest) ← wholeDigits? (skipBlank bytes)
  let value := digitsValue digits
  let fractional := match rest with
    | b :: _ => b = ascii '.' || b = ascii 'e' || b = ascii 'E'
    | [] => false
  if fractional || max < value then none else some (value, rest)

/-- Reads a string of valid UTF-8. -/
def string? (bytes : Bytes) : Option (String × Bytes) := do
  let rest ← expect? '"' bytes
  let (content, rest) ← readContent rest
  let text ← content.text?
  return (text, rest)

/-- Reads a string, or nothing at all where the word for that stands. -/
def optionalString? (bytes : Bytes) : Option (Option String × Bytes) :=
  match word? (asciiBytes "null") (skipBlank bytes) with
  | some rest => some (none, rest)
  | none => (string? bytes).map fun (s, rest) => (some s, rest)

/-- Passes over the fraction of a number, if it has one. -/
def skipFraction (bytes : Bytes) : Option Bytes :=
  match bytes with
  | 46 :: rest => if (rest.takeWhile isDigit).isEmpty then none else some (rest.dropWhile isDigit)
  | _ => some bytes

/-- Passes over the exponent of a number, if it has one. -/
def skipExponent (bytes : Bytes) : Option Bytes :=
  match bytes with
  | b :: rest =>
    if b = ascii 'e' ∨ b = ascii 'E' then
      let digits := match rest with
        | sign :: tail => if sign = ascii '+' ∨ sign = ascii '-' then tail else rest
        | [] => rest
      if (digits.takeWhile isDigit).isEmpty then none else some (digits.dropWhile isDigit)
    else some bytes
  | [] => some bytes

/-- Passes over a number without its sign. -/
def skipNumber (bytes : Bytes) : Option Bytes := do
  let (_, rest) ← wholeDigits? bytes
  skipExponent (← skipFraction rest)

mutual

/-- Passes over a value. -/
def skipValue : Nat → Bytes → Option Bytes
  | 0, _ => none
  | fuel + 1, bytes =>
    match skipBlank bytes with
    | [] => none
    | b :: rest =>
      if b = ascii 'n' then word? (asciiBytes "ull") rest
      else if b = ascii 't' then word? (asciiBytes "rue") rest
      else if b = ascii 'f' then word? (asciiBytes "alse") rest
      else if b = ascii '-' then skipNumber rest
      else if isDigit b then skipNumber (b :: rest)
      else if b = ascii '"' then skipContent rest
      else if b = ascii '[' then
        match expect? ']' rest with
        | some rest => some rest
        | none => skipItems fuel rest
      else if b = ascii '\x7b' then
        match expect? '\x7d' rest with
        | some rest => some rest
        | none => skipMembers fuel rest
      else none

/-- Passes over the values of an array and its end. -/
def skipItems : Nat → Bytes → Option Bytes
  | 0, _ => none
  | fuel + 1, bytes => do
    let rest ← skipValue fuel bytes
    match expect? ',' rest with
    | some rest => skipItems fuel rest
    | none => expect? ']' rest

/-- Passes over the members of an object and its end. -/
def skipMembers : Nat → Bytes → Option Bytes
  | 0, _ => none
  | fuel + 1, bytes => do
    let rest ← expect? '"' bytes
    let rest ← skipContent rest
    let rest ← expect? ':' rest
    let rest ← skipValue fuel rest
    match expect? ',' rest with
    | some rest => skipMembers fuel rest
    | none => expect? '\x7d' rest

end

/-- Passes over a value; the fuel covers every value that the bytes can hold. -/
def ignore? (bytes : Bytes) : Option Bytes := skipValue (2 * bytes.length + 2) bytes

/-- Whether nothing but blanks is left. -/
def isEnd (bytes : Bytes) : Bool := (skipBlank bytes).isEmpty

/-- The decimal digits of a number. -/
def decimalDigits (n : Nat) : Bytes := asciiBytes n.repr

end RaftReplica.Json
