/-!
# Sources of random words

Everything random in this library is drawn from a stream of 64-bit words. A source is any state that
hands out a word and the state after it, so that a sampler can be run on a seeded generator and
reasoned about on any stream.

The samplers refuse words that do not suit them and go on to the next. There is no end to that on a stream
that never suits, so here a draw ends after so many refusals all the same.
-/

namespace RaftReplica

/-- A state that yields a stream of 64-bit words. -/
class WordSource (σ : Type) where
  next : σ → UInt64 × σ

/-- How many times a draw refuses what it is given before it settles for a fixed result. The methods of
drawing have no such limit: it is what makes every draw end. They refuse less than every other time, so
that no draw gets there in practice. -/
def WordSource.maxRefusals : Nat := 4096

end RaftReplica
