import BallotProof.Proofs.Powers
import BallotProof.Proofs.Verdicts

/-!
# The relations that the verifiers decide

The checks take exponents modulo `q`, scan only as many bits as `q` has and compare products of
words.  What they decide is said here without any of this: the group elements are reduced `q`-th
roots of unity, the scalars are reduced, the challenge is what the digest of the transcript gives,
and the equations hold between ordinary powers modulo `p`.

* `Transcript.passes_iff_modEq` : what the checks ask of one transcript, in ordinary powers.
* `DisjunctiveProof.verify_selection_iff` : **the relation that the verifier of zero-or-one proofs
  decides**, on all words.
* `ConstantProof.verify_constant_iff` : **the relation that the verifier of known plaintexts
  decides**, on all words.  The conditions that its equations carry besides never make a difference.
-/

namespace BallotProof

open SchnorrGroup

variable {H : HashFunction} {G : SchnorrGroup} {x : Ciphertext} {key : Element}

/-! ### Ordinary powers -/

namespace SchnorrGroup

theorem isMember_iff_modEq {y : Element} :
    G.isMember y = true ↔
      1 ≤ y.toNat ∧ y.toNat < G.p.toNat ∧ y.toNat ^ G.q.toNat ≡ 1 [MOD G.p.toNat] := by
  rw [isMember_iff, modEq_one_iff]
  exact .rfl

end SchnorrGroup

namespace Transcript

variable {t : Transcript} {m : Nat}

theorem alphaHolds_iff_modEq (hc : t.c.toNat < G.q.toNat) (hv : t.v.toNat < G.q.toNat) :
    t.alphaHolds G x = true ↔
      G.g.toNat ^ t.v.toNat ≡ t.a.toNat * x.alpha.toNat ^ t.c.toNat [MOD G.p.toNat] := by
  rw [alphaHolds_iff, Nat.mod_eq_of_lt hc, Nat.mod_eq_of_lt hv]
  exact .rfl

theorem betaHolds_iff_modEq (hc : t.c.toNat < G.q.toNat) (hv : t.v.toNat < G.q.toNat) :
    t.betaHolds G x key m = true ↔
      G.g.toNat ^ (t.c.toNat * m) * key.toNat ^ t.v.toNat
        ≡ t.b.toNat * x.beta.toNat ^ t.c.toNat [MOD G.p.toNat] := by
  have hshift := (g_pow_mod_q (G := G) (t.c.toNat * m)).mul_right (key.toNat ^ t.v.toNat)
  rw [betaHolds_iff, Nat.mod_eq_of_lt hc, Nat.mod_eq_of_lt hv, hshift]
  exact .rfl

theorem passes_iff_modEq :
    t.Passes G x key m ↔
      (G.isMember t.a = true ∧ G.isMember t.b = true) ∧
        (t.c.toNat < G.q.toNat ∧ t.v.toNat < G.q.toNat) ∧
          G.g.toNat ^ t.v.toNat ≡ t.a.toNat * x.alpha.toNat ^ t.c.toNat [MOD G.p.toNat] ∧
            G.g.toNat ^ (t.c.toNat * m) * key.toNat ^ t.v.toNat
              ≡ t.b.toNat * x.beta.toNat ^ t.c.toNat [MOD G.p.toNat] := by
  constructor
  · intro h
    have hc := isReduced_iff.1 h.c_reduced
    have hv := isReduced_iff.1 h.v_reduced
    exact ⟨⟨h.a_member, h.b_member⟩, ⟨hc, hv⟩, (alphaHolds_iff_modEq hc hv).1 h.alpha,
      (betaHolds_iff_modEq hc hv).1 h.beta⟩
  · rintro ⟨⟨ha, hb⟩, ⟨hc, hv⟩, hα, hβ⟩
    exact ⟨ha, hb, isReduced_iff.2 hc, isReduced_iff.2 hv, (alphaHolds_iff_modEq hc hv).2 hα,
      (betaHolds_iff_modEq hc hv).2 hβ⟩

end Transcript

/-! ### The hashed bytes -/

/-- Elements are hashed one after the other, each behind a byte for its kind, and the challenge is
the number that the digest encodes. -/
theorem SchnorrGroup.challenge_elements (ys : List Element) :
    G.challenge H (ys.map .element) =
      G.toScalar (Bytes.toNat (H (Challenge.domain ++
        ys.flatMap fun y => 0x01 :: Bytes.ofNat 512 y.toNat)).toBytes) := by
  rw [challenge_eq_toScalar, Challenge.input, List.flatMap_map]
  rfl

/-! ### Zero-or-one proofs -/

namespace DisjunctiveProof

theorem challengeItems_eq (zero one : Commitment) :
    challengeItems x zero one =
      [x.alpha, x.beta, zero.a, zero.b, one.a, one.b].map .element :=
  rfl

/-- **The relation that the verifier of zero-or-one proofs decides.**  For any words, reduced or
not, a proof is accepted if and only if the components of the ciphertext and of the commitments are
reduced roots of unity, challenges and responses are reduced, the challenges add up to the digest
modulo the order, and the four equations hold between ordinary powers modulo `p`. -/
theorem verify_selection_iff (H : HashFunction) (G : SchnorrGroup) (x : Ciphertext) (key : Element)
    (proof : DisjunctiveProof) :
    ((Proof.disjunctive proof).verify H G x key).1 = true ↔
      (∀ y ∈ [x.alpha, x.beta, proof.zero.a, proof.zero.b, proof.one.a, proof.one.b],
        1 ≤ y.toNat ∧ y.toNat < G.p.toNat ∧ y.toNat ^ G.q.toNat ≡ 1 [MOD G.p.toNat]) ∧
      (∀ e ∈ [proof.zero.c, proof.one.c, proof.zero.v, proof.one.v], e.toNat < G.q.toNat) ∧
      proof.zero.c.toNat + proof.one.c.toNat ≡ Bytes.toNat (H (Challenge.domain ++
        [x.alpha, x.beta, proof.zero.a, proof.zero.b, proof.one.a, proof.one.b].flatMap
          fun y => 0x01 :: Bytes.ofNat 512 y.toNat)).toBytes [MOD G.q.toNat] ∧
      G.g.toNat ^ proof.zero.v.toNat
        ≡ proof.zero.a.toNat * x.alpha.toNat ^ proof.zero.c.toNat [MOD G.p.toNat] ∧
      G.g.toNat ^ proof.one.v.toNat
        ≡ proof.one.a.toNat * x.alpha.toNat ^ proof.one.c.toNat [MOD G.p.toNat] ∧
      key.toNat ^ proof.zero.v.toNat
        ≡ proof.zero.b.toNat * x.beta.toNat ^ proof.zero.c.toNat [MOD G.p.toNat] ∧
      G.g.toNat ^ proof.one.c.toNat * key.toNat ^ proof.one.v.toNat
        ≡ proof.one.b.toNat * x.beta.toNat ^ proof.one.c.toNat [MOD G.p.toNat] := by
  rw [Proof.verify_fst]
  change (proof.checks H G x key).isValid = true ↔ _
  rw [checks_isValid_iff, holds_iff, derivedChallenge, challengeItems_eq, challenge_elements,
    add_eq_toScalar, toScalar_eq_iff, Transcript.passes_iff_modEq, Transcript.passes_iff_modEq,
    Nat.mul_zero, Nat.pow_zero, Nat.one_mul, Nat.mul_one]
  simp only [← isMember_iff_modEq, List.forall_mem_cons, List.not_mem_nil, false_imp_iff,
    implies_true, and_true]
  constructor
  · rintro ⟨hsum, ⟨hα, hβ⟩, ⟨⟨ha0, hb0⟩, ⟨hc0, hv0⟩, e0, e0'⟩, ⟨ha1, hb1⟩, ⟨hc1, hv1⟩, e1, e1'⟩
    exact ⟨⟨hα, hβ, ha0, hb0, ha1, hb1⟩, ⟨hc0, hc1, hv0, hv1⟩, hsum.symm, e0, e1, e0', e1'⟩
  · rintro ⟨⟨hα, hβ, ha0, hb0, ha1, hb1⟩, ⟨hc0, hc1, hv0, hv1⟩, hsum, e0, e1, e0', e1'⟩
    exact ⟨hsum.symm, ⟨hα, hβ⟩, ⟨⟨ha0, hb0⟩, ⟨hc0, hv0⟩, e0, e0'⟩, ⟨ha1, hb1⟩, ⟨hc1, hv1⟩, e1, e1'⟩

end DisjunctiveProof

/-! ### Proofs of a known plaintext -/

namespace ConstantProof

variable {proof : ConstantProof}

/-- The checks with the equations taken by themselves, and with any scalar in the place of a
plaintext that is none. -/
def plainHolds (G : SchnorrGroup) (substitute challenge : Scalar) (x : Ciphertext) (key : Element)
    (proof : ConstantProof) : ConstantCheck → Bool
  | .alphaEquation => Transcript.alphaHolds G x { proof with c := challenge }
  | .betaEquation =>
    Transcript.betaHolds G x key ((G.scalarOfInt? proof.constant).getD substitute).toNat
      { proof with c := challenge }
  | i => proof.holds G challenge x key i

theorem plainHolds_of_ne {substitute c : Scalar} {i : ConstantCheck} (hα : i ≠ .alphaEquation)
    (hβ : i ≠ .betaEquation) :
    proof.plainHolds G substitute c x key i = proof.holds G c x key i := by
  cases i with
  | alphaEquation => exact absurd rfl hα
  | betaEquation => exact absurd rfl hβ
  | _ => rfl

/-- The conditions that the equations carry besides are checks of their own. -/
theorem holds_iff_plainHolds (substitute : Scalar) {c : Scalar} :
    (∀ i, proof.holds G c x key i = true) ↔
      ∀ i, proof.plainHolds G substitute c x key i = true := by
  -- either way the plaintext has to be a scalar, so nothing takes its place
  have hplaintext : (G.scalarOfInt? proof.constant).isSome = true →
      proof.plaintext G = ((G.scalarOfInt? proof.constant).getD substitute).toNat := by
    intro h
    obtain ⟨n, hn⟩ := Option.isSome_iff_exists.1 h
    rw [plaintext, hn, Option.getD_some, Option.getD_some]
  constructor
  · intro h i
    have eα := h .alphaEquation
    have eβ := h .betaEquation
    simp only [holds, Bool.and_eq_true] at eα eβ
    by_cases hα : i = .alphaEquation
    · rw [hα]
      exact eα.2
    by_cases hβ : i = .betaEquation
    · rw [hβ, plainHolds, ← hplaintext eβ.1]
      exact eβ.2
    · rw [plainHolds_of_ne hα hβ]
      exact h i
  · intro h i
    by_cases hα : i = .alphaEquation
    · rw [hα]
      simp only [holds, Bool.and_eq_true]
      exact ⟨⟨⟨⟨h .vBounds, h .aBounds⟩, h .alphaBounds⟩, h .cBounds⟩, h .alphaEquation⟩
    by_cases hβ : i = .betaEquation
    · rw [hβ]
      simp only [holds, Bool.and_eq_true]
      rw [hplaintext (h .constantBounds)]
      exact ⟨h .constantBounds, h .betaEquation⟩
    · rw [← plainHolds_of_ne hα hβ]
      exact h i

theorem challengeItems_eq (commitment : Commitment) :
    challengeItems x commitment =
      [x.alpha, x.beta, commitment.a, commitment.b].map .element :=
  rfl

/-- **The relation that the verifier of known plaintexts decides.**  For any words, reduced or not,
a proof is accepted if and only if the components of the ciphertext and of the commitment are
reduced roots of unity, challenge and response are reduced, the plaintext is a scalar and a possible
tally, the challenge is the digest modulo the order, and the two equations hold between ordinary
powers modulo `p`.  Neither the conditions that the equations carry besides nor what stands for a
plaintext that is no scalar make a difference. -/
theorem verify_constant_iff (H : HashFunction) (G : SchnorrGroup) (x : Ciphertext) (key : Element)
    (proof : ConstantProof) :
    (((Proof.constant proof).verify H G x key).1 = true ↔
      (∀ y ∈ [x.alpha, x.beta, proof.a, proof.b],
        1 ≤ y.toNat ∧ y.toNat < G.p.toNat ∧ y.toNat ^ G.q.toNat ≡ 1 [MOD G.p.toNat]) ∧
      (proof.c.toNat < G.q.toNat ∧ proof.v.toNat < G.q.toNat) ∧
      (0 ≤ proof.constant.toInt ∧ proof.constant.toInt < G.q.toNat ∧
        proof.constant.toInt < 1000000000) ∧
      proof.c.toNat = Bytes.toNat (H (Challenge.domain ++
        [x.alpha, x.beta, proof.a, proof.b].flatMap
          fun y => 0x01 :: Bytes.ofNat 512 y.toNat)).toBytes % G.q.toNat ∧
      G.g.toNat ^ proof.v.toNat
        ≡ proof.a.toNat * x.alpha.toNat ^ proof.c.toNat [MOD G.p.toNat] ∧
      G.g.toNat ^ (proof.c.toNat * proof.constant.toInt.toNat) * key.toNat ^ proof.v.toNat
        ≡ proof.b.toNat * x.beta.toNat ^ proof.c.toNat [MOD G.p.toNat]) ∧
    ∀ substitute,
      ((Proof.constant proof).verify H G x key).1 = true ↔
        ∀ i, proof.plainHolds G substitute (proof.derivedChallenge H G x) x key i = true := by
  rw [Proof.verify_fst]
  change ((proof.checks H G x key).isValid = true ↔ _) ∧
    ∀ substitute, (proof.checks H G x key).isValid = true ↔ _
  rw [checks_isValid_iff]
  refine ⟨?_, fun substitute => holds_iff_plainHolds substitute⟩
  rw [holds_iff, derivedChallenge, challengeItems_eq, challenge_elements, Scalar.eq_iff,
    toNat_toScalar, Transcript.passes_iff_modEq, InRange, lt_min_iff]
  simp only [← isMember_iff_modEq, List.forall_mem_cons, List.not_mem_nil, false_imp_iff,
    implies_true, and_true]
  constructor
  · rintro ⟨hc, ⟨hα, hβ⟩, hrange, ⟨ha, hb⟩, hreduced, e, e'⟩
    exact ⟨⟨hα, hβ, ha, hb⟩, hreduced, hrange, hc.symm, e, e'⟩
  · rintro ⟨⟨hα, hβ, ha, hb⟩, hreduced, hrange, hc, e, e'⟩
    exact ⟨hc.symm, ⟨hα, hβ⟩, hrange, ⟨ha, hb⟩, hreduced, e, e'⟩

end ConstantProof

end BallotProof
