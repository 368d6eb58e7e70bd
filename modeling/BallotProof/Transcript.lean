import BallotProof.Ciphertext

/-!
# Transcripts

One run of the protocol by which the owner of a nonce `r` shows that a ciphertext
`(alpha, beta) = (g ^ r, g ^ m * k ^ r)` hides the plaintext `m` under the public key `k`:

* commitment `a = g ^ u`, `b = k ^ u`;
* challenge `c`;
* response `v = u + c * r`;
* equations `g ^ v = a * alpha ^ c` and `g ^ (c * m) * k ^ v = b * beta ^ c`.

`Commitment.respond` is the honest run. `Transcript.simulate` needs no nonce: it starts from
challenge and response and solves the equations for the commitment.
-/

namespace BallotProof

/-- The first message of a run. -/
@[ext]
structure Commitment where
  /-- The generator to a secret power. -/
  a : Element
  /-- The public key to the same power. -/
  b : Element
deriving DecidableEq

/-- A run of the protocol. -/
@[ext]
structure Transcript extends Commitment where
  /-- The challenge. -/
  c : Scalar
  /-- The response. -/
  v : Scalar
deriving DecidableEq

variable (G : SchnorrGroup)

/-- The commitment to the secret power `u`. -/
def Commitment.ofNonce (key : Element) (u : Scalar) : Commitment where
  a := G.generatorPow u
  b := G.pow key u

/-- The run that answers the challenge `c`, given the power `u` of the commitment and the nonce `r`
of the ciphertext. -/
def Commitment.respond (x : Commitment) (u r c : Scalar) : Transcript :=
  { x with c, v := G.addMul u c r }

namespace Transcript

/-- The exponent `c * m` of the generator for the challenge `c` and the plaintext `m`. -/
def shift (c : Scalar) (m : Nat) : Scalar :=
  G.mul c (G.toScalar m)

/-- A run with given challenge and response, for the claim that the plaintext is `m`. -/
def simulate (x : Ciphertext) (key : Element) (m : Nat) (c v : Scalar) : Transcript where
  a := G.prod [G.generatorPow v, G.pow x.alpha (G.neg c)]
  b := G.prod [G.pow key v, G.generatorPow (shift G c m), G.pow x.beta (G.neg c)]
  c := c
  v := v

/-- The equation of the nonce: `g ^ v = a * alpha ^ c`. -/
def alphaHolds (x : Ciphertext) (t : Transcript) : Bool :=
  G.generatorPow t.v = G.prod [t.a, G.pow x.alpha t.c]

/-- The equation of the plaintext `m`: `g ^ (c * m) * k ^ v = b * beta ^ c`. -/
def betaHolds (x : Ciphertext) (key : Element) (m : Nat) (t : Transcript) : Bool :=
  G.prod [G.generatorPow (shift G t.c m), G.pow key t.v] = G.prod [t.b, G.pow x.beta t.c]

variable {G}

theorem toNat_shift (c : Scalar) (m : Nat) :
    (shift G c m).toNat = c.toNat * m % G.q.toNat := by
  rw [shift, SchnorrGroup.toNat_mul, SchnorrGroup.toNat_toScalar, Nat.mul_mod_mod]

theorem alphaHolds_iff {x : Ciphertext} {t : Transcript} :
    alphaHolds G x t = true ↔
      G.g.toNat ^ (t.v.toNat % G.q.toNat) % G.p.toNat
        = t.a.toNat * x.alpha.toNat ^ (t.c.toNat % G.q.toNat) % G.p.toNat := by
  rw [alphaHolds, decide_eq_true_iff, Element.eq_iff, SchnorrGroup.toNat_generatorPow,
    SchnorrGroup.toNat_prod_pair, SchnorrGroup.toNat_pow, Nat.mul_mod_mod]

theorem betaHolds_iff {x : Ciphertext} {key : Element} {m : Nat} {t : Transcript} :
    betaHolds G x key m t = true ↔
      G.g.toNat ^ (t.c.toNat * m % G.q.toNat) * key.toNat ^ (t.v.toNat % G.q.toNat) % G.p.toNat
        = t.b.toNat * x.beta.toNat ^ (t.c.toNat % G.q.toNat) % G.p.toNat := by
  rw [betaHolds, decide_eq_true_iff, Element.eq_iff, SchnorrGroup.toNat_prod_pair,
    SchnorrGroup.toNat_prod_pair, SchnorrGroup.toNat_generatorPow, SchnorrGroup.toNat_pow,
    SchnorrGroup.toNat_pow, ← Nat.mul_mod, Nat.mul_mod_mod, toNat_shift, Nat.mod_mod]

end Transcript

end BallotProof
