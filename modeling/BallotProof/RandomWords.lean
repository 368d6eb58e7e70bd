import BallotProof.Primality
import BallotProof.SchnorrGroup.Search

/-!
# Pseudo-random words

The SplitMix generator, addressed by position: the output at position `i` mixes the seed and `i`
multiples of an odd constant. Words are made of 64 outputs each.

* `RandomWords.draws` is a source of draws for the search for a group, `RandomWords.group?` runs the
  search.
-/

namespace BallotProof

namespace RandomWords

/-- The output at position `i`. -/
def output (seed : UInt64) (i : Nat) : UInt64 :=
  let z := seed + UInt64.ofNat (i + 1) * 0x9e3779b97f4a7c15
  let z := (z ^^^ (z >>> 30)) * 0xbf58476d1ce4e5b9
  let z := (z ^^^ (z >>> 27)) * 0x94d049bb133111eb
  z ^^^ (z >>> 31)

/-- The number of outputs in a word. -/
def limbs : Nat := Word.width / 8

/-- The word at position `i`. -/
def word (seed : UInt64) (i : Nat) : Word :=
  Word.ofNat <|
    (List.range limbs).foldl (fun n j => 2 ^ (64 : Nat) * n + (output seed (limbs * i + j)).toNat)
      0

/-- The number below `bound` at position `i`. -/
def below (seed : UInt64) (bound : Word) (i : Nat) : Word :=
  Word.ofNat ((word seed i).toNat % bound.toNat)

/-- The odd number of exactly `bits` bits at position `i`. -/
def oddOfBits (seed : UInt64) (bits i : Nat) : Nat :=
  2 ^ (bits - 1) + (word seed i).toNat % 2 ^ (bits - 2) * 2 + 1

/-- The first probable prime of exactly `bits` bits among the first `attempts` draws; none for less
than three bits or more than a word has. -/
def prime (seed : UInt64) (attempts bits : Nat) : Option Word :=
  if bits < 3 || 8 * Word.width < bits then none
  else findFirst attempts fun i =>
    let n := oddOfBits seed bits i
    if Primality.isProbablePrime n then some (Word.ofNat n) else none

/-- The draws of a seed; `attempts` bounds the search for primes. -/
def draws (seed : UInt64) (attempts : Nat) : Draws where
  prime := prime seed attempts
  below := below (seed + 1)
  word := word (seed + 2)

/-- How many draws a search tries before it starts again with another order. -/
def attempts : Nat := 4000

/-- A group found with one of the first `seeds` seeds from `seed` on. An order may allow no modulus
of the wanted length at all, so each seed gets a bounded number of attempts. -/
def group? (seed : UInt64) (seeds : Nat) (qBits pBits : UInt64) :
    Option (Except GroupError SchnorrGroup) :=
  findFirst seeds fun i =>
    SchnorrGroup.search (fun w => Primality.isProbablePrime w.toNat)
      (draws (seed + UInt64.ofNat (3 * i)) attempts) attempts qBits pBits

end RandomWords

end BallotProof
