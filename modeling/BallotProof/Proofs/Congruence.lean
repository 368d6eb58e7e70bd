import BallotProof.Diagnostic
import BallotProof.Proofs.Powers
import BallotProof.Sha3
import Mathlib.Tactic.IntervalCases

/-!
# Secrets and keys count by their classes

Nonces, seeds and secret keys enter the computations only modulo `q`, and a public key only modulo
`p`.  Nothing is assumed of these words, of the group or of the ciphertext.  The words of ciphertext
and commitments are hashed as they stand, so of these other representatives give other proofs; but
decryption does not hash, and there the ciphertext counts by its classes too.

* `SchnorrGroup.prod_cons_congr`, `SchnorrGroup.addMul_congr` : products and responses of congruent
  words; powers are in `SchnorrGroup.pow_congr`.
* `DisjunctiveProof.build_congr`, `ConstantProof.build_congr` : the builders with free challenge and
  nonces.
* `Proof.checks_congr` : no check tells congruent keys apart.
* `Ciphertext.decryptWithBlinding?_congr_beta` : nor does decryption tell congruent words apart.
* `congruent_inputs` : **builders, verifiers and decryption see secrets and keys up to
  congruence.**
-/

namespace BallotProof

open SchnorrGroup

variable {H : HashFunction} {G : SchnorrGroup} {x x' : Ciphertext} {key key' : Element}
  {r r' seed seed' : Scalar}

/-! ### Operations -/

namespace SchnorrGroup

theorem prod_cons_congr {y z : Element} (h : y.toNat ≡ z.toNat [MOD G.p.toNat])
    (ws : List Element) : G.prod (y :: ws) = G.prod (z :: ws) := by
  apply Element.ext
  rw [toNat_prod, toNat_prod, natProd, natProd]
  exact h.mul_right _

theorem addMul_congr {c d : Scalar} (h : c.toNat ≡ d.toNat [MOD G.q.toNat]) (a b : Scalar) :
    G.addMul a b c = G.addMul a b d := by
  rw [addMul_eq_toScalar, addMul_eq_toScalar, toScalar_eq_iff]
  exact (h.mul_left _).add_left _

end SchnorrGroup

/-! ### Transcripts -/

theorem Commitment.ofNonce_congr (hkey : key.toNat ≡ key'.toNat [MOD G.p.toNat]) (u : Scalar) :
    ofNonce G key u = ofNonce G key' u := by
  rw [ofNonce, ofNonce, pow_congr hkey rfl]

theorem Commitment.respond_congr (hr : r.toNat ≡ r'.toNat [MOD G.q.toNat]) (y : Commitment)
    (u c : Scalar) : y.respond G u r c = y.respond G u r' c := by
  rw [respond, respond, addMul_congr hr]

namespace Transcript

theorem simulate_congr (hkey : key.toNat ≡ key'.toNat [MOD G.p.toNat]) (m : Nat) (c v : Scalar) :
    simulate G x key m c v = simulate G x key' m c v := by
  rw [simulate, simulate, pow_congr hkey rfl]

theorem betaHolds_congr (hkey : key.toNat ≡ key'.toNat [MOD G.p.toNat]) (m : Nat)
    (t : Transcript) : t.betaHolds G x key m = t.betaHolds G x key' m := by
  rw [betaHolds, betaHolds, pow_congr hkey rfl]

end Transcript

/-! ### Proofs -/

namespace DisjunctiveProof

theorem build_congr (hr : r.toNat ≡ r'.toNat [MOD G.q.toNat])
    (hkey : key.toNat ≡ key'.toNat [MOD G.p.toNat]) (challenge : List ChallengeItem → Scalar)
    (selected : Bool) (otherChallenge otherResponse u : Scalar) :
    build G challenge x r key selected otherChallenge otherResponse u =
      build G challenge x r' key' selected otherChallenge otherResponse u := by
  simp only [build, Transcript.simulate_congr hkey, Commitment.ofNonce_congr hkey,
    Commitment.respond_congr hr]

theorem proveSelection_congr (hr : r.toNat ≡ r'.toNat [MOD G.q.toNat])
    (hkey : key.toNat ≡ key'.toNat [MOD G.p.toNat])
    (hseed : seed.toNat ≡ seed'.toNat [MOD G.q.toNat]) (selected : Bool) :
    proveSelection H G x r key seed selected = proveSelection H G x r' key' seed' selected := by
  simp only [proveSelection, NonceStream.ofSeed_congr label hseed, build_congr hr hkey]

theorem prove_congr (hr : r.toNat ≡ r'.toNat [MOD G.q.toNat])
    (hkey : key.toNat ≡ key'.toNat [MOD G.p.toNat])
    (hseed : seed.toNat ≡ seed'.toNat [MOD G.q.toNat]) (m : Nat) :
    prove H G x r key seed m = prove H G x r' key' seed' m := by
  by_cases hm : 2 ≤ m
  · rw [prove_of_two_le hm, prove_of_two_le hm]
  · interval_cases m
    · rw [prove, prove, proveSelection_congr hr hkey hseed]
    · rw [prove, prove, proveSelection_congr hr hkey hseed]

theorem holds_congr (hkey : key.toNat ≡ key'.toNat [MOD G.p.toNat]) (c : Scalar)
    (proof : DisjunctiveProof) (i : DisjunctiveCheck) :
    proof.holds G c x key i = proof.holds G c x key' i := by
  cases i with
  | betaZero => exact Transcript.betaHolds_congr hkey 0 proof.zero
  | betaOne => exact Transcript.betaHolds_congr hkey 1 proof.one
  | _ => rfl

end DisjunctiveProof

namespace ConstantProof

theorem build_congr (hr : r.toNat ≡ r'.toNat [MOD G.q.toNat])
    (hkey : key.toNat ≡ key'.toNat [MOD G.p.toNat]) (challenge : List ChallengeItem → Scalar)
    (constant : Int64) (u : Scalar) :
    build G challenge x constant r key u = build G challenge x constant r' key' u := by
  simp only [build, Commitment.ofNonce_congr hkey, Commitment.respond_congr hr]

theorem prove_congr (hr : r.toNat ≡ r'.toNat [MOD G.q.toNat])
    (hkey : key.toNat ≡ key'.toNat [MOD G.p.toNat])
    (hseed : seed.toNat ≡ seed'.toNat [MOD G.q.toNat]) (constant : Int64) :
    prove H G x constant r key seed = prove H G x constant r' key' seed' := by
  rw [prove, prove, NonceStream.ofSeed_congr label hseed, build_congr hr hkey]

theorem holds_congr (hkey : key.toNat ≡ key'.toNat [MOD G.p.toNat]) (c : Scalar)
    (proof : ConstantProof) (i : ConstantCheck) :
    proof.holds G c x key i = proof.holds G c x key' i := by
  cases i with
  | betaEquation => rw [holds, holds, Transcript.betaHolds_congr hkey]
  | _ => rfl

end ConstantProof

theorem Proof.checks_congr (hkey : key.toNat ≡ key'.toNat [MOD G.p.toNat]) (proof : Proof) :
    proof.checks H G x key = proof.checks H G x key' := by
  cases proof with
  | disjunctive proof =>
    simp only [checks, DisjunctiveProof.checks, DisjunctiveProof.holds_congr hkey]
  | constant proof => simp only [checks, ConstantProof.checks, ConstantProof.holds_congr hkey]

/-! ### Decryption -/

namespace Ciphertext

theorem decryptWithBlinding?_congr_beta (hβ : x.beta.toNat ≡ x'.beta.toNat [MOD G.p.toNat])
    (blinding : Element) (bound : Nat) :
    x.decryptWithBlinding? G blinding bound = x'.decryptWithBlinding? G blinding bound := by
  simp only [decryptWithBlinding?, prod_cons_congr hβ]

theorem decrypt?_congr (hα : x.alpha.toNat ≡ x'.alpha.toNat [MOD G.p.toNat])
    (hβ : x.beta.toNat ≡ x'.beta.toNat [MOD G.p.toNat])
    (hr : r.toNat ≡ r'.toNat [MOD G.q.toNat]) (bound : Nat) :
    x.decrypt? G r bound = x'.decrypt? G r' bound := by
  rw [decrypt?, decrypt?, pow_congr hα hr, decryptWithBlinding?_congr_beta hβ]

theorem decryptWithNonce?_congr (hβ : x.beta.toNat ≡ x'.beta.toNat [MOD G.p.toNat])
    (hr : r.toNat ≡ r'.toNat [MOD G.q.toNat]) (hkey : key.toNat ≡ key'.toNat [MOD G.p.toNat])
    (bound : Nat) : x.decryptWithNonce? G r key bound = x'.decryptWithNonce? G r' key' bound := by
  rw [decryptWithNonce?, decryptWithNonce?, pow_congr hkey hr, decryptWithBlinding?_congr_beta hβ]

end Ciphertext

/-! ### All inputs -/

/-- **Builders, verifiers and decryption see secrets and keys up to congruence.**  For any words and
every hash function: the builders return the same for congruent nonces, seeds and keys, errors
included; the checks of any proof, accepted or not, and its verdict are the same for congruent keys;
and decryption by either route is the same for congruent secrets, nonces, keys and components of the
ciphertext. -/
theorem congruent_inputs (H : HashFunction) (G : SchnorrGroup) (x : Ciphertext) :
    (∀ r r' seed seed' : Scalar, ∀ key key' : Element, r.toNat ≡ r'.toNat [MOD G.q.toNat] →
      seed.toNat ≡ seed'.toNat [MOD G.q.toNat] → key.toNat ≡ key'.toNat [MOD G.p.toNat] →
        (∀ m, DisjunctiveProof.prove H G x r key seed m =
          DisjunctiveProof.prove H G x r' key' seed' m) ∧
        ∀ constant, ConstantProof.prove H G x constant r key seed =
          ConstantProof.prove H G x constant r' key' seed') ∧
    (∀ key key' : Element, key.toNat ≡ key'.toNat [MOD G.p.toNat] → ∀ proof : Proof,
      proof.checks H G x key = proof.checks H G x key' ∧
        (proof.verify H G x key).1 = (proof.verify H G x key').1) ∧
    ∀ x' : Ciphertext, x.alpha.toNat ≡ x'.alpha.toNat [MOD G.p.toNat] →
      x.beta.toNat ≡ x'.beta.toNat [MOD G.p.toNat] → ∀ bound,
        (∀ secret secret' : Scalar, secret.toNat ≡ secret'.toNat [MOD G.q.toNat] →
          x.decrypt? G secret bound = x'.decrypt? G secret' bound) ∧
        ∀ r r' : Scalar, ∀ key key' : Element, r.toNat ≡ r'.toNat [MOD G.q.toNat] →
          key.toNat ≡ key'.toNat [MOD G.p.toNat] →
            x.decryptWithNonce? G r key bound = x'.decryptWithNonce? G r' key' bound := by
  refine ⟨?_, ?_, ?_⟩
  · intro r r' seed seed' key key' hr hseed hkey
    exact ⟨DisjunctiveProof.prove_congr hr hkey hseed, ConstantProof.prove_congr hr hkey hseed⟩
  · intro key key' hkey proof
    have hchecks : proof.checks H G x key = proof.checks H G x key' := Proof.checks_congr hkey proof
    refine ⟨hchecks, ?_⟩
    rw [Proof.verify_fst, Proof.verify_fst, hchecks]
  · intro x' hα hβ bound
    exact ⟨fun _ _ hsecret => Ciphertext.decrypt?_congr hα hβ hsecret bound,
      fun _ _ _ _ hr hkey => Ciphertext.decryptWithNonce?_congr hβ hr hkey bound⟩

/-- In the group of order 11 modulo 23: the nonces 5 and 16, the seeds 7 and 29 and the keys 18 and
41 give one proof, and a ciphertext of two is opened in other representatives of both components,
with the nonce 16 and the key 41. -/
theorem congruent_inputs_small :
    let r' : Scalar := ⟨⟨16, Word.lt_limit_of_lt (by decide)⟩⟩
    let seed' : Scalar := ⟨⟨29, Word.lt_limit_of_lt (by decide)⟩⟩
    let key : Element := small.toElement 18
    let key' : Element := ⟨⟨41, Word.lt_limit_of_lt (by decide)⟩⟩
    let x : Ciphertext := ⟨small.toElement 12, small.toElement 2⟩
    let x' : Ciphertext :=
      ⟨⟨⟨35, Word.lt_limit_of_lt (by decide)⟩⟩, ⟨⟨25, Word.lt_limit_of_lt (by decide)⟩⟩⟩
    DisjunctiveProof.prove Sha3.hash small x (small.toScalar 5) key (small.toScalar 7) 1 =
        DisjunctiveProof.prove Sha3.hash small x r' key' seed' 1 ∧
      (∀ proof : Proof, (proof.verify Sha3.hash small x key).1 =
        (proof.verify Sha3.hash small x key').1) ∧
      x'.decryptWithNonce? small r' key' 11 = x.decryptWithNonce? small (small.toScalar 5) key 11 ∧
      x.decryptWithNonce? small (small.toScalar 5) key 11 = some 2 := by
  intro r' seed' key key' x x'
  obtain ⟨hbuilders, hverifiers, hdecryption⟩ := congruent_inputs Sha3.hash small x
  have hr : (small.toScalar 5).toNat ≡ r'.toNat [MOD small.q.toNat] := by decide
  have hkey : key.toNat ≡ key'.toNat [MOD small.p.toNat] := by decide
  refine ⟨?_, fun proof => (hverifiers key key' hkey proof).2, ?_, by decide +kernel⟩
  · exact (hbuilders _ r' (small.toScalar 7) seed' key key' hr (by decide) hkey).1 1
  · exact ((hdecryption x' (by decide) (by decide) 11).2 _ _ _ _ hr hkey).symm

end BallotProof
