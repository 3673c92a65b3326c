import RaftReplica.Random.WordSource

/-!
# The ChaCha generator

ChaCha with twelve rounds, as a stream of 64-bit words. The key is expanded from a 64-bit seed by a
linear congruential generator with permuted output; the block counter starts at zero and the nonce
is zero. The sixteen output words of a block are used in order, two to a 64-bit word, the low half
first.
-/

namespace RaftReplica

/-- A ChaCha stream: its key, the number of the next block, and the words left of the last one. -/
structure ChaCha where
  key : Vector UInt32 8
  counter : UInt64
  pending : List UInt64
deriving Inhabited, Repr, DecidableEq

namespace ChaCha

/-- The sixteen words that the rounds mix. -/
abbrev Block := Vector UInt32 16

/-- The words `x` and `y` together with `x` the low half. -/
def joinWords (x y : UInt32) : UInt64 := y.toUInt64 <<< 32 ||| x.toUInt64

/-- A word with its bits turned left by `n` places, `0 < n < 32`. -/
def rotateLeft (x n : UInt32) : UInt32 := x <<< n ||| x >>> (32 - n)

/-- One step of the seed expansion: the next key word and the seed after it. -/
def expandStep (s : UInt64) : UInt32 × UInt64 :=
  let s := s * 6364136223846793005 + 11634580027462260723
  let x := (((s >>> 18) ^^^ s) >>> 27).toUInt32
  let turn := (s >>> 59).toUInt32
  (if turn = 0 then x else rotateLeft x (32 - turn), s)

/-- The key of a seed. -/
def expandSeed (seed : UInt64) : Vector UInt32 8 :=
  let (k₀, s) := expandStep seed
  let (k₁, s) := expandStep s
  let (k₂, s) := expandStep s
  let (k₃, s) := expandStep s
  let (k₄, s) := expandStep s
  let (k₅, s) := expandStep s
  let (k₆, s) := expandStep s
  let (k₇, _) := expandStep s
  #v[k₀, k₁, k₂, k₃, k₄, k₅, k₆, k₇]

/-- Mixes the four words at the places `a b c d` of a block. -/
def quarterRound (a b c d : Fin 16) (block : Block) : Block :=
  let xa := block[a]
  let xb := block[b]
  let xc := block[c]
  let xd := block[d]
  let xa := xa + xb
  let xd := rotateLeft (xd ^^^ xa) 16
  let xc := xc + xd
  let xb := rotateLeft (xb ^^^ xc) 12
  let xa := xa + xb
  let xd := rotateLeft (xd ^^^ xa) 8
  let xc := xc + xd
  let xb := rotateLeft (xb ^^^ xc) 7
  (((block.set a xa).set b xb).set c xc).set d xd

/-- A round on the columns of the block and one on its diagonals. -/
def doubleRound (block : Block) : Block :=
  block
    |> quarterRound 0 4 8 12 |> quarterRound 1 5 9 13
    |> quarterRound 2 6 10 14 |> quarterRound 3 7 11 15
    |> quarterRound 0 5 10 15 |> quarterRound 1 6 11 12
    |> quarterRound 2 7 8 13 |> quarterRound 3 4 9 14

/-- The block of a number before mixing: four constants, the key, the number and a zero nonce. -/
def inputBlock (key : Vector UInt32 8) (counter : UInt64) : Block :=
  (#v[0x61707865, 0x3320646e, 0x79622d32, 0x6b206574] : Vector UInt32 4) ++ key ++
    (#v[counter.toUInt32, (counter >>> 32).toUInt32, 0, 0] : Vector UInt32 4)

/-- The output of a block: the mixed block added to the unmixed one. -/
def outputBlock (key : Vector UInt32 8) (counter : UInt64) : Block :=
  let input := inputBlock key counter
  input.zipWith (· + ·) (Nat.repeat doubleRound 6 input)

/-- Words taken in pairs, the first of a pair as the low half. -/
def pairWords : List UInt32 → List UInt64
  | low :: high :: rest => joinWords low high :: pairWords rest
  | _ => []

/-- The stream that a seed starts. -/
def ofSeed (seed : UInt64) : ChaCha :=
  { key := expandSeed seed, counter := 0, pending := [] }

/-- The next word of the stream and the stream after it. -/
def next (stream : ChaCha) : UInt64 × ChaCha :=
  match stream.pending with
  | word :: rest => (word, { stream with pending := rest })
  | [] =>
    match pairWords (outputBlock stream.key stream.counter).toList with
    | word :: rest => (word, { stream with counter := stream.counter + 1, pending := rest })
    | [] => (0, { stream with counter := stream.counter + 1 })

instance : WordSource ChaCha := ⟨next⟩

end ChaCha

end RaftReplica
