import RaftReplica.Number.Binary64

/-!
# Durations

A duration is a whole number of nanoseconds with at most 2^64 - 1 whole seconds. Scaling by a float
goes through seconds as a float and back to the nearest nanosecond; it fails when the result has too
many seconds.
-/

namespace RaftReplica

/-- A span of time in nanoseconds, shorter than 2^64 seconds. -/
structure Duration where
  nanoseconds : Nat
  inRange : nanoseconds < 2 ^ 64 * 10 ^ 9
deriving DecidableEq

namespace Duration

/-- The duration of that many nanoseconds, or the longest one. -/
def ofNanoseconds (n : Nat) : Duration :=
  ⟨min n (2 ^ 64 * 10 ^ 9 - 1), by omega⟩

def ofMilliseconds (n : Nat) : Duration := ofNanoseconds (n * 10 ^ 6)

def ofSeconds (n : Nat) : Duration := ofNanoseconds (n * 10 ^ 9)

/-- The duration of whole seconds and nanoseconds beyond them. -/
def ofParts (seconds nanoseconds : Nat) : Duration :=
  ofNanoseconds (seconds * 10 ^ 9 + nanoseconds)

def zero : Duration := ofNanoseconds 0

instance : Inhabited Duration := ⟨zero⟩

instance : LT Duration := ⟨fun a b => a.nanoseconds < b.nanoseconds⟩

instance : LE Duration := ⟨fun a b => a.nanoseconds ≤ b.nanoseconds⟩

instance (a b : Duration) : Decidable (a < b) :=
  inferInstanceAs (Decidable (a.nanoseconds < b.nanoseconds))

instance (a b : Duration) : Decidable (a ≤ b) :=
  inferInstanceAs (Decidable (a.nanoseconds ≤ b.nanoseconds))

def wholeSeconds (d : Duration) : Nat := d.nanoseconds / 10 ^ 9

def subsecondNanoseconds (d : Duration) : Nat := d.nanoseconds % 10 ^ 9

/-- The nanoseconds as far as a word holds them. -/
def nanosecondsClamped (d : Duration) : Nat := min d.nanoseconds wordMax

/-- The duration in seconds: whole seconds and fraction are rounded to floats and then added. -/
def toSeconds (d : Duration) : Float :=
  d.wholeSeconds.toUInt64.toFloat + d.subsecondNanoseconds.toUInt64.toFloat / 1e9

/-- The duration nearest to a number of seconds, a half nanosecond going to the even neighbour.
There is none for less than nothing, for 2^64 seconds and more, and for no number at all. -/
def ofSeconds? (seconds : Float) : Option Duration := do
  if seconds < 0 then none
  else
    let n ← Binary64.scaledNearestEven? (10 ^ 9) seconds
    if h : n < 2 ^ 64 * 10 ^ 9 then some ⟨n, h⟩ else none

/-- The duration times a float, if a duration holds it. -/
def scale? (d : Duration) (factor : Float) : Option Duration :=
  ofSeconds? (factor * d.toSeconds)

theorem nanosecondsClamped_le (d : Duration) : d.nanosecondsClamped ≤ wordMax := by
  simp only [nanosecondsClamped]; omega

theorem nanoseconds_ofNanoseconds {n : Nat} (h : n ≤ wordMax) :
    (ofNanoseconds n).nanoseconds = n := by
  simp only [ofNanoseconds, wordMax] at *; omega

end Duration

end RaftReplica
