import BallotProof.SchnorrGroup.DiscreteLog

/-!
# Ciphertexts

Exponential ElGamal: the plaintext `m` under the public key `k` with the nonce `r` is
`(g ^ r, g ^ m * k ^ r)`. Multiplying ciphertexts adds plaintexts and nonces.

* `Ciphertext.encrypt?` encrypts, `Ciphertext.aggregate` multiplies.
* `Ciphertext.decrypt?`, `Ciphertext.decryptWithNonce?` and `Ciphertext.decryptWithBlinding?` find
  a plaintext below a bound.
* `Ciphertext.encrypt?_eq_none_iff` : which nonces are refused.
-/

namespace BallotProof

/-- A pair of elements that hides a plaintext. -/
@[ext]
structure Ciphertext where
  /-- The generator to the power of the nonce. -/
  alpha : Element
  /-- The generator to the power of the plaintext, times the key to the power of the nonce. -/
  beta : Element
deriving DecidableEq

namespace Ciphertext

variable (G : SchnorrGroup)

/-- The plaintext under the public key `key`; refused unless the nonce is reduced and not zero. -/
def encrypt? (plaintext : Nat) (nonce : Scalar) (key : Element) : Option Ciphertext :=
  if nonce.toNat = 0 || !G.isReduced nonce then none
  else some
    { alpha := G.generatorPow nonce
      beta := G.prod [G.generatorPow (G.toScalar plaintext), G.pow key nonce] }

/-- The ciphertext of the sum of the plaintexts. -/
def add (x y : Ciphertext) : Ciphertext where
  alpha := G.prod [x.alpha, y.alpha]
  beta := G.prod [x.beta, y.beta]

/-- The ciphertext of zero with the nonce zero. -/
def trivial : Ciphertext := ⟨1, 1⟩

/-- The sum of any number of ciphertexts. -/
def aggregate (xs : List Ciphertext) : Ciphertext :=
  xs.foldl (add G) trivial

/-- The plaintext below `bound`, given the key to the power of the nonce. -/
def decryptWithBlinding? (x : Ciphertext) (blinding : Element) (bound : Nat) : Option Nat := do
  let inverse ← G.inverse? blinding
  G.discreteLog? (G.prod [x.beta, inverse]) bound

/-- The plaintext below `bound`, given the secret key. -/
def decrypt? (x : Ciphertext) (secret : Scalar) (bound : Nat) : Option Nat :=
  x.decryptWithBlinding? G (G.pow x.alpha secret) bound

/-- The plaintext below `bound`, given the nonce and the public key. -/
def decryptWithNonce? (x : Ciphertext) (nonce : Scalar) (key : Element) (bound : Nat) :
    Option Nat :=
  x.decryptWithBlinding? G (G.pow key nonce) bound

variable {G}

theorem encrypt?_eq_none_iff {plaintext : Nat} {nonce : Scalar} {key : Element} :
    encrypt? G plaintext nonce key = none ↔ nonce.toNat = 0 ∨ G.q.toNat ≤ nonce.toNat := by
  simp [encrypt?, SchnorrGroup.isReduced, Decidable.or_iff_not_imp_left]

@[simp] theorem aggregate_nil : aggregate G [] = trivial := rfl

end Ciphertext

end BallotProof
