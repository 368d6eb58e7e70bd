import BallotProof.Proofs.FalseClaims
import Mathlib.Data.Int.ModEq

/-!
# What a seed that is used twice gives away

The nonces of a proof depend on nothing but seed and label.  With the same seed, or another one of
its class, two proofs therefore simulate from the same challenge and response and commit to the same
power, whatever they are about.  In the difference of the two honest responses this power cancels,
and what is left is a linear equation for the nonces of the two ciphertexts.

* `Transcript.RevealNonce` : the equation, and how to solve it if the nonces are the same.
* `Commitment.respond_revealNonce` : **two honest runs with one power** are related in this way.
* `DisjunctiveProof.proveSelection_shared_seed` : two zero-or-one proofs, for the same selection or
  not.
* `prove_shared_seed` : **a seed that is used twice reveals a nonce that is used twice.**
-/

namespace BallotProof

open SchnorrGroup

variable {G : SchnorrGroup} {r r' : Scalar}

/-! ### Two honest runs with one power -/

/-- What two transcripts say about the nonces `r` and `r'`: the difference of the responses does not
contain the power of the commitment, so that one nonce behind both transcripts can be computed from
them. -/
structure Transcript.RevealNonce (G : SchnorrGroup) (r r' : Scalar) (t t' : Transcript) : Prop where
  responses : (t.v.toNat : Int) - t'.v.toNat ≡
    t.c.toNat * r.toNat - t'.c.toNat * r'.toNat [ZMOD G.q.toNat]
  nonce : r.toNat ≡ r'.toNat [MOD G.q.toNat] → t.c ≠ t'.c →
    r.toNat % G.q.toNat = (extract G t t').val

namespace Transcript

variable {t t' : Transcript}

theorem extract_eq (hq : G.q.toNat.Prime) (hc : t.c.toNat < G.q.toNat)
    (hc' : t'.c.toNat < G.q.toNat) (hne : t.c ≠ t'.c)
    (hv : G.exponent t.v - G.exponent t'.v =
      G.exponent t.c * G.exponent r - G.exponent t'.c * G.exponent r) :
    extract G t t' = G.exponent r := by
  have := Fact.mk hq
  have hδ : G.exponent t.c - G.exponent t'.c ≠ 0 := by
    intro hzero
    exact hne (scalar_ext hc hc' (sub_eq_zero.1 hzero))
  rw [extract, hv, ← sub_mul, inv_mul_cancel_left₀ hδ]

end Transcript

/-- **Two honest runs with one power** give an equation for their nonces, and the nonce itself if it
is the same and the challenges are not. -/
theorem Commitment.respond_revealNonce (hq : G.q.toNat.Prime) (y y' : Commitment) (u : Scalar)
    {c c' : Scalar} (hc : c.toNat < G.q.toNat) (hc' : c'.toNat < G.q.toNat) :
    Transcript.RevealNonce G r r' (y.respond G u r c) (y'.respond G u r' c') := by
  have hv : G.exponent (y.respond G u r c).v - G.exponent (y'.respond G u r' c').v =
      G.exponent c * G.exponent r - G.exponent c' * G.exponent r' := by
    simp only [respond, exponent_addMul]
    exact add_sub_add_left_eq_sub _ _ _
  constructor
  · rw [← ZMod.intCast_eq_intCast_iff]
    push_cast
    exact hv
  · intro hr hne
    have hexponent : G.exponent r = G.exponent r' := exponent_eq_iff.2 hr
    rw [← hexponent] at hv
    rw [Transcript.extract_eq hq hc hc' hne hv, exponent, ZMod.val_natCast]

/-! ### Two proofs from one seed -/

variable {H : HashFunction} {x x' : Ciphertext} {key key' : Element} {seed seed' : Scalar}

namespace DisjunctiveProof

/-- Two zero-or-one proofs simulate from the same challenge and response, and their honest
transcripts have one power, for the same selection or not. -/
theorem proveSelection_shared_seed (hq : G.q.toNat.Prime)
    (hseed : seed.toNat ≡ seed'.toNat [MOD G.q.toNat]) (selected selected' : Bool) :
    let proof := proveSelection H G x r key seed selected
    let proof' := proveSelection H G x' r' key' seed' selected'
    ((proof.branch !selected).c = (proof'.branch !selected').c ∧
      (proof.branch !selected).v = (proof'.branch !selected').v) ∧
      Transcript.RevealNonce G r r' (proof.branch selected) (proof'.branch selected') := by
  intro proof proof'
  obtain ⟨-, hother, hown, hlt⟩ := proveSelection_branches H G x r key seed selected
  obtain ⟨-, hother', hown', hlt'⟩ := proveSelection_branches H G x' r' key' seed' selected'
  rw [← NonceStream.ofSeed_congr label hseed] at hother' hown'
  constructor
  · rw [hother, hother']
    exact ⟨rfl, rfl⟩
  · rw [hown, hown']
    exact Commitment.respond_revealNonce hq _ _ _ hlt hlt'

end DisjunctiveProof

theorem ConstantProof.prove_revealNonce (hq : G.q.toNat.Prime)
    (hseed : seed.toNat ≡ seed'.toNat [MOD G.q.toNat]) (constant constant' : Int64) :
    Transcript.RevealNonce G r r' (prove H G x constant r key seed).toTranscript
      (prove H G x' constant' r' key' seed').toTranscript := by
  rw [prove, prove, ← NonceStream.ofSeed_congr label hseed]
  exact Commitment.respond_revealNonce hq _ _ _ challenge_lt challenge_lt

/-- **A seed that is used twice reveals a nonce that is used twice.**  For congruent seeds and any
two ciphertexts, keys and nonces: two proofs of known plaintexts give the difference of their
responses as a linear form in the nonces, and the nonce itself if it is the same for both and the
challenges are different.  Of two zero-or-one proofs the transcripts for the claimed plaintexts do
the same, and those for the other plaintexts share challenge and response; so with the claims zero
and one, these are found for one in the first proof and for zero in the second. -/
theorem prove_shared_seed (H : HashFunction) (G : SchnorrGroup) (hq : G.q.toNat.Prime)
    (x x' : Ciphertext) (key key' : Element) (r r' : Scalar) {seed seed' : Scalar}
    (hseed : seed.toNat ≡ seed'.toNat [MOD G.q.toNat]) :
    (∀ constant constant' : Int64, Transcript.RevealNonce G r r'
      (ConstantProof.prove H G x constant r key seed).toTranscript
      (ConstantProof.prove H G x' constant' r' key' seed').toTranscript) ∧
    ∀ selected selected' : Bool, ∃ proof proof',
      DisjunctiveProof.prove H G x r key seed selected.toNat = .ok proof ∧
      DisjunctiveProof.prove H G x' r' key' seed' selected'.toNat = .ok proof' ∧
      ((proof.branch !selected).c = (proof'.branch !selected').c ∧
        (proof.branch !selected).v = (proof'.branch !selected').v) ∧
      Transcript.RevealNonce G r r' (proof.branch selected) (proof'.branch selected') := by
  have hprove (x : Ciphertext) (r : Scalar) (key : Element) (seed : Scalar) (selected : Bool) :
      DisjunctiveProof.prove H G x r key seed selected.toNat =
        .ok (DisjunctiveProof.proveSelection H G x r key seed selected) := by
    cases selected <;> rfl
  refine ⟨ConstantProof.prove_revealNonce hq hseed, fun selected selected' => ?_⟩
  exact ⟨_, _, hprove .., hprove ..,
    DisjunctiveProof.proveSelection_shared_seed hq hseed selected selected'⟩

/-- The nonce 5, by itself and as 16, behind two ciphertexts under different keys, with the seeds 7
and 18.  The hash function looks at the tag and at one byte of `alpha`, so that the challenges are
different; the nonce is computed from two proofs of either kind. -/
theorem prove_shared_seed_small :
    let H : HashFunction := fun bytes =>
      (Vector.replicate 31 0).push (bytes.getD 16 0 + bytes.getD 539 0)
    let x : Ciphertext := ⟨small.toElement 12, small.toElement 2⟩
    let x' : Ciphertext := ⟨small.toElement 2, small.toElement 3⟩
    let key := small.toElement 18
    let key' := small.toElement 5
    let r' : Scalar := ⟨⟨16, Word.lt_limit_of_lt (by decide)⟩⟩
    let seed' : Scalar := ⟨⟨18, Word.lt_limit_of_lt (by decide)⟩⟩
    (Transcript.extract small
      (ConstantProof.prove H small x 1 (small.toScalar 5) key (small.toScalar 7)).toTranscript
      (ConstantProof.prove H small x' 2 r' key' seed').toTranscript).val = 5 ∧
    ∃ proof proof',
      DisjunctiveProof.prove H small x (small.toScalar 5) key (small.toScalar 7) 0 = .ok proof ∧
      DisjunctiveProof.prove H small x' r' key' seed' 1 = .ok proof' ∧
      (proof.one.c = proof'.zero.c ∧ proof.one.v = proof'.zero.v) ∧
      (Transcript.extract small proof.zero proof'.one).val = 5 := by
  intro H x x' key key' r' seed'
  have hr : (small.toScalar 5).toNat ≡ r'.toNat [MOD small.q.toNat] := by decide
  have hseed : (small.toScalar 7).toNat ≡ seed'.toNat [MOD small.q.toNat] := by decide
  obtain ⟨hconstant, hdisjunctive⟩ :=
    prove_shared_seed H small small_q_prime x x' key key' (small.toScalar 5) r' hseed
  obtain ⟨proof, proof', hproof, hproof', hshared, hreveal⟩ := hdisjunctive false true
  refine ⟨((hconstant 1 2).nonce hr ?_).symm, proof, proof', hproof, hproof', hshared,
    (hreveal.nonce hr ?_).symm⟩
  · change small.challenge H _ ≠ small.challenge H _
    rw [challenge_eq_toScalar, challenge_eq_toScalar]
    decide +kernel
  · obtain rfl := Except.ok.inj hproof
    obtain rfl := Except.ok.inj hproof'
    change small.sub (small.challenge H _) (NonceStream.get H small _ 0) ≠
      small.sub (small.challenge H _) (NonceStream.get H small _ 0)
    rw [challenge_eq_toScalar, challenge_eq_toScalar, NonceStream.get_eq_toScalar,
      NonceStream.get_eq_toScalar]
    decide +kernel

end BallotProof
