import BallotProof.SchnorrGroup.Basic

/-!
# Search for a group

A fresh group is searched for from random draws: a prime order `q`, an even cofactor `k` for which
`p = k * q + 1` is prime, and a generator `h ^ k` that is neither zero nor one. Draws and the test
for primes are parameters, and each search tries a given number of draws.

* `SchnorrGroup.search` runs the searches and checks what it found like any other group.
* `SchnorrGroup.search_of_not_usable` : unusable bit lengths are refused before anything is drawn.
-/

namespace BallotProof

/-- Where a search takes its random numbers from. -/
structure Draws where
  /-- A prime with the given number of bits, if there is one to give. -/
  prime : Nat → Option Word
  /-- The numbers below a bound, one after the other. -/
  below : Word → Nat → Word
  /-- The words, one after the other. -/
  word : Nat → Word

/-- The first value found among the first `attempts` ones. -/
def findFirst {α : Type} (attempts : Nat) (f : Nat → Option α) : Option α :=
  (List.range attempts).findSome? f

section FindFirst

variable {α : Type} {f : Nat → Option α} {attempts more : Nat} {a : α}

/-- What is found is one of the values. -/
theorem exists_of_findFirst (h : findFirst attempts f = some a) : ∃ i, f i = some a := by
  obtain ⟨i, -, hi⟩ := List.exists_of_findSome?_eq_some h
  exact ⟨i, hi⟩

/-- More attempts change nothing where a value is found. -/
theorem findFirst_of_le (h : findFirst attempts f = some a) (hle : attempts ≤ more) :
    findFirst more f = some a := by
  rw [findFirst] at h
  rw [findFirst, show more = attempts + (more - attempts) by omega, List.range_add,
    List.findSome?_append, h, Option.some_or]

end FindFirst

namespace SchnorrGroup

/-- The bit lengths that a search accepts; the sum is taken modulo `2 ^ 64`. -/
def usableBitLengths (qBits pBits : UInt64) : Bool :=
  !(qBits < 3 || pBits < qBits + 3 || UInt64.ofNat (8 * Word.width) < pBits)

/-- An even cofactor of `bits` bits and the prime modulus that it gives for the order `q`. -/
def searchModulus (isPrime : Word → Bool) (draws : Draws) (attempts : Nat) (q : Word)
    (bits : Nat) : Option (Word × Word) :=
  -- half the cofactor has its top bit set and one bit less than the cofactor
  let floor : Word := Word.ofNat (2 ^ (bits - 2))
  findFirst attempts fun i =>
    let half := draws.below floor i + floor
    let cofactor := half + half
    let p := cofactor * q + 1
    if isPrime p then some (cofactor, p) else none

/-- A power to the cofactor that is neither zero nor one modulo `p`. -/
def searchGenerator (draws : Draws) (attempts : Nat) (p cofactor : Word) (bits : Nat) :
    Option Word :=
  findFirst attempts fun i =>
    let g := Modular.pow p.toNat bits (draws.word i).toNat cofactor.toNat
    if g ≠ 1 && g ≠ 0 then some (Word.ofNat g) else none

/-- A group with an order of `qBits` bits and a modulus of at most `pBits` bits; `none` if the
draws do not contain one. -/
def search (isPrime : Word → Bool) (draws : Draws) (attempts : Nat) (qBits pBits : UInt64) :
    Option (Except GroupError SchnorrGroup) :=
  if usableBitLengths qBits pBits then do
    let q ← draws.prime qBits.toNat
    let bits := (pBits - qBits).toNat
    let (cofactor, p) ← searchModulus isPrime draws attempts q bits
    let g ← searchGenerator draws attempts p cofactor bits
    return ofWords p q g
  else some (.error (.unusableBitLengths qBits pBits))

theorem search_of_not_usable {isPrime : Word → Bool} {draws : Draws} {attempts : Nat}
    {qBits pBits : UInt64} (h : usableBitLengths qBits pBits = false) :
    search isPrime draws attempts qBits pBits
      = some (.error (.unusableBitLengths qBits pBits)) := by
  rw [search, if_neg (by simp [h])]

end SchnorrGroup

end BallotProof
