import RaftReplica.Number.Word

/-!
# Whole numbers out of binary floating point

A finite 64-bit float is a whole mantissa times a power of two. This file reads that value off the
bits and rounds it to whole numbers: up, to the nearest with halves away from zero, and, scaled, to
the nearest with halves to the even neighbour. All results stay within a 64-bit word.
-/

namespace RaftReplica.Binary64

/-- The quotient `n / d` rounded to the nearest whole number, a half to the even neighbour. -/
def divNearestEven (n d : Nat) : Nat :=
  let q := n / d
  let r := n % d
  if d < 2 * r ∨ (2 * r = d ∧ q % 2 = 1) then q + 1 else q

/-- The mantissa `m` and exponent `e` of a finite float's magnitude `m * 2 ^ e`. -/
def magnitude? (x : Float) : Option (Nat × Int) :=
  let bits := x.toBits.toNat
  let fraction : Nat := bits % 2 ^ 52
  let exponent : Nat := bits / 2 ^ 52 % 2 ^ 11
  if exponent = 2 ^ 11 - 1 then none
  else if exponent = 0 then some (fraction, -1074)
  else some (fraction + 2 ^ 52, (exponent : Int) - 1075)

/-- The magnitude of a finite float times `scale`, rounded to the nearest whole number, a half to
the even neighbour. -/
def scaledNearestEven? (scale : Nat) (x : Float) : Option Nat :=
  (magnitude? x).map fun (mantissa, exponent) =>
    if 0 ≤ exponent then mantissa * scale * 2 ^ exponent.toNat
    else divNearestEven (mantissa * scale) (2 ^ (-exponent).toNat)

/-- The float's magnitude without its fraction. -/
def integral? (x : Float) : Option Nat :=
  (magnitude? x).map fun (mantissa, exponent) =>
    if 0 ≤ exponent then mantissa * 2 ^ exponent.toNat
    else mantissa / 2 ^ (-exponent).toNat

/-- The greatest word not above `x`, and zero below zero. -/
def floorWord (x : Float) : Nat := x.toUInt64.toNat

/-- The least word not below `x`, and the largest word above that. -/
def ceilWord (x : Float) : Nat :=
  let whole := x.toUInt64
  if whole.toFloat < x then min (whole.toNat + 1) wordMax else whole.toNat

/-- The word nearest to `x`, a half going away from zero. Below one half, and for no number at all,
it is zero. -/
def nearestWord (x : Float) : Nat :=
  let whole := x.toUInt64
  if 0.5 ≤ x - whole.toFloat then min (whole.toNat + 1) wordMax else whole.toNat

end RaftReplica.Binary64
