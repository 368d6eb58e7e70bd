import BallotProof.Proofs.Uniqueness
import BallotProof.Proofs.Verdicts

/-!
# Accepted proofs are about one statement

The challenge is derived from ciphertext and commitments, not from the public key, and no hash
function is assumed to be free of collisions.  In a group of prime order the equations alone tie an
accepted proof to its statement.

* `Transcript.Passes.c_eq_zero` : a transcript that passes for two ciphertexts has the challenge
  zero.
* `Transcript.Passes.key_iff` : a passing transcript passes for another key exactly if its response
  is zero.
* `isValid_of_two_statements` : **a proof is bound to its ciphertext unless its challenges are zero,
  and to its public key unless its responses are zero**, for both kinds of proofs.
-/

namespace BallotProof

open SchnorrGroup

variable {H : HashFunction} {G : SchnorrGroup} {x x' : Ciphertext} {key : Element}
  {κ κ' : G.Members} {m : Nat}

namespace Transcript

variable {t : Transcript}

theorem Passes.c_eq_zero (hq : G.q.toNat.Prime)
    (hx : G.isMember x.alpha = true ∧ G.isMember x.beta = true)
    (hx' : G.isMember x'.alpha = true ∧ G.isMember x'.beta = true) (h : t.Passes G x key m)
    (h' : t.Passes G x' key m) (hne : x ≠ x') : t.c.toNat = 0 := by
  by_contra hc
  have hc' := exponent_ne_zero (isReduced_iff.1 h.c_reduced) hc
  exact hne (h.ciphertext_eq hq hx hx' h' hc')

theorem Passes.key_iff (hq : G.q.toNat.Prime) (hβ : G.isMember x.beta = true) (hne : κ ≠ κ')
    (h : t.Passes G x (G.element κ) m) :
    t.Passes G x (G.element κ') m ↔ t.v.toNat = 0 := by
  obtain ⟨β, hβ⟩ := isMember_iff_exists.1 hβ
  rw [h.congr_key hβ, ← exponent_eq_zero_iff (isReduced_iff.1 h.v_reduced)]
  constructor
  · intro hv
    by_contra hne'
    exact hne ((smul_left_inj_of_ne_zero hq hne').1 hv)
  · intro hv
    rw [hv, zero_smul, zero_smul]

end Transcript

/-! ### Zero-or-one proofs -/

namespace DisjunctiveProof

variable {proof : DisjunctiveProof}

theorem c_eq_zero_of_two_ciphertexts (hq : G.q.toNat.Prime)
    (h : (proof.checks H G x key).isValid = true) (h' : (proof.checks H G x' key).isValid = true)
    (hne : x ≠ x') : proof.zero.c.toNat = 0 ∧ proof.one.c.toNat = 0 := by
  obtain ⟨-, hx, h0, h1⟩ := holds_iff.1 (checks_isValid_iff.1 h)
  obtain ⟨-, hx', h0', h1'⟩ := holds_iff.1 (checks_isValid_iff.1 h')
  exact ⟨h0.c_eq_zero hq hx hx' h0' hne, h1.c_eq_zero hq hx hx' h1' hne⟩

theorem isValid_other_key_iff (hq : G.q.toNat.Prime) (hne : κ ≠ κ')
    (h : (proof.checks H G x (G.element κ)).isValid = true) :
    (proof.checks H G x (G.element κ')).isValid = true ↔
      proof.zero.v.toNat = 0 ∧ proof.one.v.toNat = 0 := by
  obtain ⟨hc, hx, h0, h1⟩ := holds_iff.1 (checks_isValid_iff.1 h)
  rw [checks_isValid_iff, holds_iff, h0.key_iff hq hx.2 hne, h1.key_iff hq hx.2 hne]
  exact ⟨fun h' => h'.2.2, fun h' => ⟨hc, hx, h'⟩⟩

end DisjunctiveProof

/-! ### Proofs of a known plaintext -/

namespace ConstantProof

variable {proof : ConstantProof}

theorem c_eq_zero_of_two_ciphertexts (hq : G.q.toNat.Prime)
    (h : (proof.checks H G x key).isValid = true) (h' : (proof.checks H G x' key).isValid = true)
    (hne : x ≠ x') : proof.c.toNat = 0 := by
  obtain ⟨-, hx, -, ht⟩ := holds_iff.1 (checks_isValid_iff.1 h)
  obtain ⟨-, hx', -, ht'⟩ := holds_iff.1 (checks_isValid_iff.1 h')
  exact ht.c_eq_zero hq hx hx' ht' hne

theorem isValid_other_key_iff (hq : G.q.toNat.Prime) (hne : κ ≠ κ')
    (h : (proof.checks H G x (G.element κ)).isValid = true) :
    (proof.checks H G x (G.element κ')).isValid = true ↔ proof.v.toNat = 0 := by
  obtain ⟨hc, hx, hrange, ht⟩ := holds_iff.1 (checks_isValid_iff.1 h)
  rw [checks_isValid_iff, holds_iff, ht.key_iff hq hx.2 hne]
  exact ⟨fun h' => h'.2.2.2, fun h' => ⟨hc, hx, hrange, h'⟩⟩

end ConstantProof

/-! ### Both kinds of proofs -/

/-- **An accepted proof is bound to its statement**, whatever the hash function is.  If it is
accepted for another ciphertext under the same key, which may be any word, all its challenges are
zero.  It is accepted for the same ciphertext under another key of the group exactly if all its
responses are zero. -/
theorem isValid_of_two_statements (H : HashFunction) (G : SchnorrGroup) (hq : G.q.toNat.Prime) :
    (∀ key x x', x ≠ x' →
      (∀ proof : DisjunctiveProof, (proof.checks H G x key).isValid = true →
        (proof.checks H G x' key).isValid = true →
          proof.zero.c.toNat = 0 ∧ proof.one.c.toNat = 0) ∧
      ∀ proof : ConstantProof, (proof.checks H G x key).isValid = true →
        (proof.checks H G x' key).isValid = true → proof.c.toNat = 0) ∧
    ∀ x key key', G.isMember key = true → G.isMember key' = true → key ≠ key' →
      (∀ proof : DisjunctiveProof, (proof.checks H G x key).isValid = true →
        ((proof.checks H G x key').isValid = true ↔
          proof.zero.v.toNat = 0 ∧ proof.one.v.toNat = 0)) ∧
      ∀ proof : ConstantProof, (proof.checks H G x key).isValid = true →
        ((proof.checks H G x key').isValid = true ↔ proof.v.toNat = 0) := by
  constructor
  · intro key x x' hne
    exact ⟨fun _ h h' => DisjunctiveProof.c_eq_zero_of_two_ciphertexts hq h h' hne,
      fun _ h h' => ConstantProof.c_eq_zero_of_two_ciphertexts hq h h' hne⟩
  · intro x key key' hkey hkey' hne
    obtain ⟨κ, rfl⟩ := isMember_iff_exists.1 hkey
    obtain ⟨κ', rfl⟩ := isMember_iff_exists.1 hkey'
    have hne' : κ ≠ κ' := fun h => hne (congrArg G.element h)
    exact ⟨fun _ h => DisjunctiveProof.isValid_other_key_iff hq hne' h,
      fun _ h => ConstantProof.isValid_other_key_iff hq hne' h⟩

/-- A proof of a known plaintext with the challenge zero, accepted for two ciphertexts, and two
zero-or-one proofs, of which only the one whose responses are zero is accepted under two keys. -/
theorem isValid_of_two_statements_small :
    let zero : HashFunction := fun _ => Vector.replicate 32 0
    let three : HashFunction := fun _ => (Vector.replicate 31 0).push 3
    let x : Ciphertext := ⟨small.toElement 12, small.toElement 3⟩
    let x' : Ciphertext := ⟨small.toElement 2, small.toElement 3⟩
    let key := small.toElement 18
    let key' := small.toElement 13
    let sum : ConstantProof :=
      ⟨(Commitment.ofNonce small key (small.toScalar 8)).respond small (small.toScalar 8)
        (small.toScalar 5) (small.toScalar 0), 1⟩
    let selection := fun v => DisjunctiveProof.mk
      (.simulate small x key 0 (small.toScalar 1) (small.toScalar v))
      (.simulate small x key 1 (small.toScalar 2) (small.toScalar v))
    ((sum.checks zero small x key).isValid = true ∧ (sum.checks zero small x' key).isValid = true ∧
        sum.c.toNat = 0) ∧
      (((selection 0).checks three small x key).isValid = true ∧
        ((selection 0).checks three small x key').isValid = true) ∧
      ((selection 4).checks three small x key).isValid = true ∧
        ((selection 4).checks three small x key').isValid ≠ true := by
  intro zero three x x' key key' sum selection
  have hsum : (sum.checks zero small x key).isValid = true :=
    ConstantProof.isValid_of_derivedChallenge challenge_eq_toScalar (by decide +kernel)
  have hsum' : (sum.checks zero small x' key).isValid = true :=
    ConstantProof.isValid_of_derivedChallenge challenge_eq_toScalar (by decide +kernel)
  have hzero : ((selection 0).checks three small x key).isValid = true :=
    DisjunctiveProof.isValid_of_derivedChallenge challenge_eq_toScalar (by decide +kernel)
  have hfour : ((selection 4).checks three small x key).isValid = true :=
    DisjunctiveProof.isValid_of_derivedChallenge challenge_eq_toScalar (by decide +kernel)
  obtain ⟨hciphertext, -⟩ := isValid_of_two_statements zero small small_q_prime
  obtain ⟨-, hkey⟩ := isValid_of_two_statements three small small_q_prime
  obtain ⟨hother, -⟩ := hkey x key key' (by decide) (by decide) (by decide)
  refine ⟨⟨hsum, hsum', ?_⟩, ⟨hzero, ?_⟩, hfour, ?_⟩
  · exact (hciphertext key x x' (by decide)).2 sum hsum hsum'
  · exact (hother (selection 0) hzero).2 (by decide)
  · exact fun h => absurd ((hother (selection 4) hfour).1 h) (by decide)

end BallotProof
