import BallotProof.Checks
import BallotProof.Event
import BallotProof.NonceStream.Basic
import BallotProof.Transcript

/-!
# Proofs that a selection is zero or one

Two transcripts side by side, one for the plaintext zero and one for the plaintext one. The prover
runs the true one honestly and simulates the other; the two challenges have to add up to the
challenge derived from ciphertext and commitments, so that only one of them is free.

* `DisjunctiveProof.prove` makes a proof, deterministic in its seed; `DisjunctiveProof.build` is
  the same with free challenge and nonces.
* `DisjunctiveProof.holds` decides each check, `DisjunctiveProof.checks` lists them.
-/

namespace BallotProof

/-- A transcript for each of the two plaintexts. -/
@[ext]
structure DisjunctiveProof where
  /-- The transcript for the plaintext zero. -/
  zero : Transcript
  /-- The transcript for the plaintext one. -/
  one : Transcript
deriving DecidableEq

/-- Why no proof can be made. -/
inductive ProofError where
  /-- The plaintext is neither zero nor one. -/
  | plaintextOutOfRange (plaintext : Nat)
deriving DecidableEq

/-- The text of the error. -/
def ProofError.message : ProofError → String
  | .plaintextOutOfRange plaintext =>
    "disjunctive proofs only support plaintexts of 0 or 1, got " ++ toString plaintext

/-- The checks of a zero-or-one proof. -/
inductive DisjunctiveCheck where
  /-- `alpha` is a member of the group. -/
  | alphaBounds
  /-- `beta` is a member of the group. -/
  | betaBounds
  /-- `a` for zero is a member of the group. -/
  | a0Bounds
  /-- `b` for zero is a member of the group. -/
  | b0Bounds
  /-- `a` for one is a member of the group. -/
  | a1Bounds
  /-- `b` for one is a member of the group. -/
  | b1Bounds
  /-- The challenge for zero is reduced. -/
  | c0Bounds
  /-- The challenge for one is reduced. -/
  | c1Bounds
  /-- The response for zero is reduced. -/
  | v0Bounds
  /-- The response for one is reduced. -/
  | v1Bounds
  /-- The challenges add up to the derived one. -/
  | challenge
  /-- The equation of the nonce holds for zero. -/
  | alphaZero
  /-- The equation of the nonce holds for one. -/
  | alphaOne
  /-- The equation of the plaintext holds for zero. -/
  | betaZero
  /-- The equation of the plaintext holds for one. -/
  | betaOne
deriving DecidableEq

namespace DisjunctiveCheck

/-- All checks, in the order in which they are listed. -/
def all : List DisjunctiveCheck :=
  [.alphaBounds, .betaBounds, .a0Bounds, .b0Bounds, .a1Bounds, .b1Bounds, .c0Bounds, .c1Bounds,
    .v0Bounds, .v1Bounds, .challenge, .alphaZero, .alphaOne, .betaZero, .betaOne]

/-- The name of a check. -/
def name : DisjunctiveCheck → String
  | .alphaBounds => "in_bounds_alpha"
  | .betaBounds => "in_bounds_beta"
  | .a0Bounds => "in_bounds_a0"
  | .b0Bounds => "in_bounds_b0"
  | .a1Bounds => "in_bounds_a1"
  | .b1Bounds => "in_bounds_b1"
  | .c0Bounds => "in_bounds_c0"
  | .c1Bounds => "in_bounds_c1"
  | .v0Bounds => "in_bounds_v0"
  | .v1Bounds => "in_bounds_v1"
  | .challenge => "consistent_c"
  | .alphaZero => "consistent_gv0"
  | .alphaOne => "consistent_gv1"
  | .betaZero => "consistent_kv0"
  | .betaOne => "consistent_gc1kv1"

theorem mem_all (i : DisjunctiveCheck) : i ∈ all := by
  cases i <;> decide

theorem nodup_names : (all.map name).Nodup := by
  decide

end DisjunctiveCheck

namespace DisjunctiveProof

/-- The label of the nonces. -/
def label : String := "disjoint-chaum-pedersen-proof"

/-- The proof with one transcript of its own and one for the other plaintext. -/
def ofBranches (selected : Bool) (own other : Transcript) : DisjunctiveProof :=
  if selected then ⟨other, own⟩ else ⟨own, other⟩

/-- What the challenge is derived from: the ciphertext and the commitments for zero and one. -/
def challengeItems (x : Ciphertext) (zero one : Commitment) : List ChallengeItem :=
  [.element x.alpha, .element x.beta, .element zero.a, .element zero.b, .element one.a,
    .element one.b]

variable (H : HashFunction) (G : SchnorrGroup)

/-! ### Making a proof -/

/-- The proof that the ciphertext `x` with the nonce `r` under `key` hides one if `selected` and
zero otherwise. The other transcript is simulated from its challenge and response, and `u` is
the power of the honest commitment. -/
def build (challenge : List ChallengeItem → Scalar) (x : Ciphertext) (r : Scalar) (key : Element)
    (selected : Bool) (otherChallenge otherResponse u : Scalar) : DisjunctiveProof :=
  let other := Transcript.simulate G x key (!selected).toNat otherChallenge otherResponse
  let own := Commitment.ofNonce G key u
  -- the transcript for zero goes first, whichever of the two is simulated
  let c := challenge <|
    if selected then challengeItems x other.toCommitment own
    else challengeItems x own other.toCommitment
  ofBranches selected (own.respond G u r (G.sub c otherChallenge)) other

/-- The proof with the challenge and the nonces that belong to the seed. -/
def proveSelection (x : Ciphertext) (r : Scalar) (key : Element) (seed : Scalar)
    (selected : Bool) : DisjunctiveProof :=
  let nonces := NonceStream.ofSeed G seed label
  build G (G.challenge H) x r key selected (nonces.get H G 0) (nonces.get H G 1)
    (nonces.get H G 2)

/-- The proof that a ciphertext with the nonce `r` hides the plaintext, which has to be zero or
one. -/
def prove (x : Ciphertext) (r : Scalar) (key : Element) (seed : Scalar) :
    (plaintext : Nat) → Except ProofError DisjunctiveProof
  | 0 => .ok (proveSelection H G x r key seed false)
  | 1 => .ok (proveSelection H G x r key seed true)
  | plaintext => .error (.plaintextOutOfRange plaintext)

/-- The proof as a record. -/
def dump (proof : DisjunctiveProof) : String :=
  Text.record "DisjunctiveProof"
    [("a0", proof.zero.a.dump), ("b0", proof.zero.b.dump),
      ("a1", proof.one.a.dump), ("b1", proof.one.b.dump),
      ("c0", proof.zero.c.dump), ("c1", proof.one.c.dump),
      ("v0", proof.zero.v.dump), ("v1", proof.one.v.dump)]

/-- The event that a proof has been made. -/
def made (proof : DisjunctiveProof) : Event where
  level := .debug
  message := "made disjunctive Chaum-Pedersen proof"
  fields := [("c0", proof.zero.c.toHex), ("c1", proof.one.c.toHex)]

/-! ### Checking a proof -/

/-- The outcome of a check, given the derived challenge. -/
def holds (challenge : Scalar) (x : Ciphertext) (key : Element) (proof : DisjunctiveProof) :
    DisjunctiveCheck → Bool
  | .alphaBounds => G.isMember x.alpha
  | .betaBounds => G.isMember x.beta
  | .a0Bounds => G.isMember proof.zero.a
  | .b0Bounds => G.isMember proof.zero.b
  | .a1Bounds => G.isMember proof.one.a
  | .b1Bounds => G.isMember proof.one.b
  | .c0Bounds => G.isReduced proof.zero.c
  | .c1Bounds => G.isReduced proof.one.c
  | .v0Bounds => G.isReduced proof.zero.v
  | .v1Bounds => G.isReduced proof.one.v
  | .challenge => challenge = G.add proof.zero.c proof.one.c
  | .alphaZero => proof.zero.alphaHolds G x
  | .alphaOne => proof.one.alphaHolds G x
  | .betaZero => proof.zero.betaHolds G x key 0
  | .betaOne => proof.one.betaHolds G x key 1

/-- The challenge derived from the ciphertext and the commitments of the proof. -/
def derivedChallenge (x : Ciphertext) (proof : DisjunctiveProof) : Scalar :=
  G.challenge H (challengeItems x proof.zero.toCommitment proof.one.toCommitment)

/-- All checks by name. -/
def checks (x : Ciphertext) (key : Element) (proof : DisjunctiveProof) : Checks :=
  let c := proof.derivedChallenge H G x
  DisjunctiveCheck.all.map fun i => (i.name, proof.holds G c x key i)

variable {H G}

theorem checks_isValid_iff {x : Ciphertext} {key : Element} {proof : DisjunctiveProof} :
    (proof.checks H G x key).isValid = true ↔
      ∀ i, proof.holds G (proof.derivedChallenge H G x) x key i = true := by
  simp only [checks, Checks.isValid, List.all_map, List.all_eq_true, Function.comp]
  exact ⟨fun h i => h i (DisjunctiveCheck.mem_all i), fun h i _ => h i⟩

/-- Any plaintext but zero and one is refused. -/
theorem prove_of_two_le {x : Ciphertext} {r : Scalar} {key : Element} {seed : Scalar}
    {plaintext : Nat} (h : 2 ≤ plaintext) :
    prove H G x r key seed plaintext = .error (.plaintextOutOfRange plaintext) := by
  match plaintext, h with
  | n + 2, _ => rfl

end DisjunctiveProof

end BallotProof
