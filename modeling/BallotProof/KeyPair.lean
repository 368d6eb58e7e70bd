import BallotProof.SchnorrGroup.Arithmetic

/-!
# Key pairs

The public key is the generator to the power of the secret key. The secrets zero and one are
refused: their public keys are one and the generator.

* `KeyPair.ofSecret_eq_ok_iff` : which secrets are accepted.
-/

namespace BallotProof

/-- A secret key with its public key. -/
structure KeyPair where
  /-- The exponent. -/
  secretKey : Scalar
  /-- The power of the generator. -/
  publicKey : Element
deriving DecidableEq

/-- Why a scalar is no secret key. -/
inductive KeyError where
  /-- The scalar is below two or not reduced. -/
  | secretOutOfRange
deriving DecidableEq

/-- The text of the error. -/
def KeyError.message : KeyError → String
  | .secretOutOfRange => "secret key must lie in [2, Q)"

namespace KeyPair

/-- The key pair of a secret from two up to the order of the group. -/
def ofSecret (G : SchnorrGroup) (secret : Scalar) : Except KeyError KeyPair :=
  if G.isReduced secret && 2 ≤ secret.toNat then .ok ⟨secret, G.generatorPow secret⟩
  else .error .secretOutOfRange

theorem ofSecret_eq_ok_iff {G : SchnorrGroup} {secret : Scalar} {keys : KeyPair} :
    ofSecret G secret = .ok keys ↔
      2 ≤ secret.toNat ∧ secret.toNat < G.q.toNat ∧ keys = ⟨secret, G.generatorPow secret⟩ := by
  unfold ofSecret
  split
  · rename_i h
    simp only [Bool.and_eq_true, SchnorrGroup.isReduced_iff, decide_eq_true_eq] at h
    simp [h.1, h.2, eq_comm]
  · rename_i h
    simp only [Bool.and_eq_true, SchnorrGroup.isReduced_iff, decide_eq_true_eq] at h
    simp only [reduceCtorEq, false_iff]
    exact fun h' => h ⟨h'.2.1, h'.1⟩

/-- The first key pair among the given draws, each reduced, that is accepted. -/
def ofDraws? (G : SchnorrGroup) (draws : List Word) : Option KeyPair :=
  draws.findSome? fun w => (ofSecret G (G.reduce w)).toOption

theorem exists_of_ofDraws? {G : SchnorrGroup} {draws : List Word} {keys : KeyPair}
    (h : ofDraws? G draws = some keys) : ∃ w ∈ draws, ofSecret G (G.reduce w) = .ok keys := by
  obtain ⟨w, hw, hsome⟩ := List.exists_of_findSome?_eq_some h
  refine ⟨w, hw, ?_⟩
  cases hsecret : ofSecret G (G.reduce w) with
  | error e => rw [hsecret] at hsome; cases hsome
  | ok found => rw [hsecret] at hsome; exact congrArg Except.ok (Option.some.inj hsome)

end KeyPair

end BallotProof
