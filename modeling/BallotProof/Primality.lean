import BallotProof.Modular

/-!
# Probable primes

The strong probable prime test, with the first primes as bases.

* `Primality.isStrongProbablePrime` is the test to one base.
* `Primality.isProbablePrime` runs it to all bases, after a look for small divisors.
-/

namespace BallotProof

namespace Primality

/-- The bases of the test. -/
def bases : List Nat :=
  [2, 3, 5, 7, 11, 13, 17, 19, 23, 29, 31, 37, 41, 43, 47, 53, 59, 61, 67, 71, 73, 79, 83, 89, 97,
    101, 103, 107, 109, 113, 127, 131, 137, 139, 149, 151, 157, 163, 167, 173]

/-- The exponent of two in `n` and the odd rest, looking at `bits` bits. -/
def oddPart : Nat → Nat → Nat × Nat
  | 0, n => (0, n)
  | bits + 1, n =>
    if n % 2 = 0 then
      let (twos, odd) := oddPart bits (n / 2)
      (twos + 1, odd)
    else (0, n)

/-- One of `x` and its next `count` squares modulo `n` is `n - 1`. -/
def squaresMeet (n : Nat) : Nat → Nat → Bool
  | 0, x => x = n - 1
  | count + 1, x => x = n - 1 || squaresMeet n count (x * x % n)

/-- `n` behaves like a prime to the base `a`. -/
def isStrongProbablePrime (n a : Nat) : Bool :=
  let (twos, odd) := oddPart (Modular.bitLength n) (n - 1)
  let x := Modular.pow n (Modular.bitLength odd) a odd
  x = 1 || squaresMeet n (twos - 1) x

/-- `n` has no small divisor and behaves like a prime to all bases. -/
def isProbablePrime (n : Nat) : Bool :=
  if n < 2 then false
  else if bases.contains n then true
  else if bases.any fun a => n % a = 0 then false
  else bases.all (isStrongProbablePrime n)

end Primality

end BallotProof
