import RaftReplica.Random.WordSource
import RaftReplica.Random.Ziggurat

/-!
# The standard normal distribution

Samples are drawn by the layered rejection method: a word picks a layer and a point across it; the
point is taken at once if it lies under the next layer, by comparison with the density if it lies in
the layer's wedge, and from the exponential bound of the tail if the layer is the base.
-/

namespace RaftReplica.Normal

/-- The float in [1, 2) or [2, 4) with a given exponent field and the upper 52 bits of a word. -/
def withExponent (exponentField word : UInt64) : Float :=
  Float.ofBits (exponentField <<< 52 ||| word >>> 12)

/-- A float in [-1, 1). -/
def signedUnit (word : UInt64) : Float := withExponent 1024 word - 3

/-- A float in (0, 1). -/
def openUnit (word : UInt64) : Float :=
  withExponent 1023 word - Float.ofBits 0x3FEFFFFFFFFFFFFF

/-- A float in [0, 1) on a grid of 2^53 points. -/
def unit (word : UInt64) : Float := (word >>> 11).toFloat * Float.ofBits 0x3CA0000000000000

/-- The density without its constant factor. -/
def density (x : Float) : Float := Float.exp (-x * x / 2)

/-- Draws the distance beyond the start of the tail, as a negative number, refusing at most that many points.
After those it is the start itself. -/
def drawTail {σ : Type} [WordSource σ] : Nat → σ → Float × σ
  | 0, source => (0, source)
  | refusals + 1, source =>
    let (word₁, source) := WordSource.next source
    let (word₂, source) := WordSource.next source
    let x := Float.log (openUnit word₁) / Ziggurat.tailStart
    let y := Float.log (openUnit word₂)
    if -2 * y < x * x then drawTail refusals source else (x, source)

/-- Draws a sample, refusing at most that many points. After those it is the middle of the distribution. -/
def drawWithin {σ : Type} [WordSource σ] : Nat → σ → Float × σ
  | 0, source => (0, source)
  | refusals + 1, source =>
    let (word, source) := WordSource.next source
    let layer := word.toNat % 256
    let u := signedUnit word
    let x := u * Ziggurat.edges.getD layer 0
    if x.abs < Ziggurat.edges.getD (layer + 1) 0 then (x, source)
    else if layer = 0 then
      let (beyond, source) := drawTail WordSource.maxRefusals source
      (if u < 0 then beyond - Ziggurat.tailStart else Ziggurat.tailStart - beyond, source)
    else
      let (word, source) := WordSource.next source
      let low := Ziggurat.heights.getD (layer + 1) 0
      let high := Ziggurat.heights.getD layer 0
      if low + (high - low) * unit word < density x then (x, source)
      else drawWithin refusals source

/-- Draws a sample. -/
def draw {σ : Type} [WordSource σ] (source : σ) : Float × σ := drawWithin WordSource.maxRefusals source

end RaftReplica.Normal
