import BallotProof.Checks
import BallotProof.Event
import BallotProof.NonceStream.Basic
import BallotProof.Transcript

/-!
# Proofs of a known plaintext

A transcript together with the plaintext that it claims, for instance that the sum of the
selections in a contest is the selection limit. The plaintext is signed, so that claims out of
range can be written down and refused.

* `ConstantProof.prove` makes a proof, deterministic in its seed; `ConstantProof.build` is the same
  with free challenge and nonce.
* `ConstantProof.holds` decides each check against the derived challenge; the challenge in the proof
  only has to agree with it.
-/

namespace BallotProof

/-- A transcript and the plaintext that it claims. -/
@[ext]
structure ConstantProof extends Transcript where
  /-- The claimed plaintext. -/
  constant : Int64
deriving DecidableEq

/-- The checks of a proof of a known plaintext. -/
inductive ConstantCheck where
  /-- `alpha` is a member of the group. -/
  | alphaBounds
  /-- `beta` is a member of the group. -/
  | betaBounds
  /-- `a` is a member of the group. -/
  | aBounds
  /-- `b` is a member of the group. -/
  | bBounds
  /-- The challenge is reduced. -/
  | cBounds
  /-- The response is reduced. -/
  | vBounds
  /-- The plaintext is a reduced scalar. -/
  | constantBounds
  /-- The plaintext is a possible tally. -/
  | saneConstant
  /-- The challenge is the derived one. -/
  | challenge
  /-- The equation of the nonce holds, over reduced values. -/
  | alphaEquation
  /-- The equation of the plaintext holds, for a plaintext that is a scalar. -/
  | betaEquation
deriving DecidableEq

namespace ConstantCheck

/-- All checks, in the order in which they are listed. -/
def all : List ConstantCheck :=
  [.alphaBounds, .betaBounds, .aBounds, .bBounds, .cBounds, .vBounds, .constantBounds,
    .saneConstant, .challenge, .alphaEquation, .betaEquation]

/-- The name of a check. -/
def name : ConstantCheck → String
  | .alphaBounds => "in_bounds_alpha"
  | .betaBounds => "in_bounds_beta"
  | .aBounds => "in_bounds_a"
  | .bBounds => "in_bounds_b"
  | .cBounds => "in_bounds_c"
  | .vBounds => "in_bounds_v"
  | .constantBounds => "in_bounds_constant"
  | .saneConstant => "sane_constant"
  | .challenge => "consistent_c"
  | .alphaEquation => "consistent_gv"
  | .betaEquation => "consistent_kv"

theorem mem_all (i : ConstantCheck) : i ∈ all := by
  cases i <;> decide

theorem nodup_names : (all.map name).Nodup := by
  decide

end ConstantCheck

namespace ConstantProof

/-- The label of the nonces. -/
def label : String := "constant-chaum-pedersen-proof"

/-- Tallies are below this number. -/
def maxConstant : Int := 1000000000

/-- What the challenge is derived from: the ciphertext and the commitment. -/
def challengeItems (x : Ciphertext) (commitment : Commitment) : List ChallengeItem :=
  [.element x.alpha, .element x.beta, .element commitment.a, .element commitment.b]

variable (H : HashFunction) (G : SchnorrGroup)

/-! ### Making a proof -/

/-- The proof that the ciphertext `x` with the nonce `r` under `key` hides the constant; `u` is the
power of the commitment. -/
def build (challenge : List ChallengeItem → Scalar) (x : Ciphertext) (constant : Int64)
    (r : Scalar) (key : Element) (u : Scalar) : ConstantProof :=
  let commitment := Commitment.ofNonce G key u
  let c := challenge (challengeItems x commitment)
  { commitment.respond G u r c with constant }

/-- The proof with the challenge and the nonce that belong to the seed. -/
def prove (x : Ciphertext) (constant : Int64) (r : Scalar) (key : Element) (seed : Scalar) :
    ConstantProof :=
  build G (G.challenge H) x constant r key ((NonceStream.ofSeed G seed label).get H G 0)

/-- The proof as a record. -/
def dump (proof : ConstantProof) : String :=
  Text.record "ConstantProof"
    [("a", proof.a.dump), ("b", proof.b.dump), ("c", proof.c.dump), ("v", proof.v.dump),
      ("constant", toString proof.constant.toInt)]

/-- The event that a proof has been made. -/
def made (proof : ConstantProof) : Event where
  level := .debug
  message := "made constant Chaum-Pedersen proof"
  fields := [("constant", toString proof.constant.toInt), ("c", proof.c.toHex)]

/-! ### Checking a proof -/

/-- The claimed plaintext as a scalar; zero if it is none. -/
def plaintext (proof : ConstantProof) : Nat :=
  ((G.scalarOfInt? proof.constant).getD 0).toNat

/-- The outcome of a check, given the derived challenge, which the equations are taken at. -/
def holds (challenge : Scalar) (x : Ciphertext) (key : Element) (proof : ConstantProof) :
    ConstantCheck → Bool
  | .alphaBounds => G.isMember x.alpha
  | .betaBounds => G.isMember x.beta
  | .aBounds => G.isMember proof.a
  | .bBounds => G.isMember proof.b
  | .cBounds => G.isReduced proof.c
  | .vBounds => G.isReduced proof.v
  | .constantBounds => (G.scalarOfInt? proof.constant).isSome
  | .saneConstant => 0 ≤ proof.constant.toInt && proof.constant.toInt < maxConstant
  | .challenge => challenge = proof.c
  | .alphaEquation =>
    G.isReduced proof.v && G.isMember proof.a && G.isMember x.alpha && G.isReduced proof.c
      && Transcript.alphaHolds G x { proof with c := challenge }
  | .betaEquation =>
    (G.scalarOfInt? proof.constant).isSome
      && Transcript.betaHolds G x key (proof.plaintext G) { proof with c := challenge }

/-- The challenge derived from the ciphertext and the commitment of the proof. -/
def derivedChallenge (x : Ciphertext) (proof : ConstantProof) : Scalar :=
  G.challenge H (challengeItems x proof.toCommitment)

/-- All checks by name. -/
def checks (x : Ciphertext) (key : Element) (proof : ConstantProof) : Checks :=
  let c := proof.derivedChallenge H G x
  ConstantCheck.all.map fun i => (i.name, proof.holds G c x key i)

variable {H G}

theorem checks_isValid_iff {x : Ciphertext} {key : Element} {proof : ConstantProof} :
    (proof.checks H G x key).isValid = true ↔
      ∀ i, proof.holds G (proof.derivedChallenge H G x) x key i = true := by
  simp only [checks, Checks.isValid, List.all_map, List.all_eq_true, Function.comp]
  exact ⟨fun h i => h i (ConstantCheck.mem_all i), fun h i _ => h i⟩

end ConstantProof

end BallotProof
