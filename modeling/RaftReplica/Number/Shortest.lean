import RaftReplica.Number.Binary64

/-!
# Whole floats in few digits

A float that is a whole number stands for every number that rounds to it. Written out, it shows the
one of them with the most zeros at its end, and of two with as many, the nearer.
-/

namespace RaftReplica.Binary64

/-- The numbers that round to a whole float: its value, how far they reach below and above it in
quarters, and whether the ends round to it as well. -/
structure Reach where
  value : Nat
  below : Nat
  above : Nat
  closed : Bool

namespace Reach

/-- The numbers that round to `mantissa * 2 ^ exponent`. Next to a power of two the floats below lie
twice as close. -/
def ofParts (mantissa exponent : Nat) : Reach where
  value := mantissa * 2 ^ exponent
  below := if mantissa = 2 ^ 52 then 2 ^ exponent else 2 * 2 ^ exponent
  above := 2 * 2 ^ exponent
  closed := mantissa % 2 = 0

/-- Whether a whole number rounds to the float. -/
def holds (r : Reach) (n : Nat) : Bool :=
  if n < r.value then
    let distance := 4 * (r.value - n)
    distance < r.below || (r.closed && distance == r.below)
  else
    let distance := 4 * (n - r.value)
    distance < r.above || (r.closed && distance == r.above)

/-- The nearer of the two multiples of `grid` around the value, of those that round to the float. -/
def nearestOn? (r : Reach) (grid : Nat) : Option Nat :=
  let lower := r.value / grid * grid
  let upper := if lower = r.value then lower else lower + grid
  match r.holds lower, r.holds upper with
  | true, true => some (if upper - r.value < r.value - lower then upper else lower)
  | true, false => some lower
  | false, true => some upper
  | false, false => none

/-- Tries multiples of `10 ^ zeros` and then of lower powers. -/
def roundest (r : Reach) : (zeros : Nat) → Nat
  | 0 => r.value
  | zeros + 1 => (r.nearestOn? (10 ^ (zeros + 1))).getD (r.roundest zeros)

end Reach

/-- The number that a whole float shows. A fraction is left away. -/
def shownWhole? (x : Float) : Option Nat :=
  (magnitude? x).map fun (mantissa, exponent) =>
    if exponent ≤ 0 then mantissa / 2 ^ (-exponent).toNat
    else
      let r := Reach.ofParts mantissa exponent.toNat
      r.roundest (Nat.log2 r.value)

end RaftReplica.Binary64
