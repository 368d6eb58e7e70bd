import BallotProof.Proofs.Verdicts

/-!
# Other representatives of the same classes

All arithmetic reduces its operands, so an accepted proof still satisfies every equation when words
in it are replaced by congruent ones.  Only the bounds see the difference, and whatever is gated by
them.

* `Transcript.SameClasses` : two transcripts agree modulo `p` and `q`.
* `SchnorrGroup.isMember_of_modEq`, `SchnorrGroup.isReduced_of_modEq` : of all words in the class of
  one that is in bounds, no other one is.
* `DisjunctiveProof.checks_of_sameClasses`, `ConstantProof.checks_of_sameClasses` : the outcome of
  every check after words of an accepted proof have been replaced.
* `failed_representatives` : **exactly the bounds of the replaced fields fail**, and of a proof of a
  known plaintext also the equation that they gate.
-/

namespace BallotProof

open SchnorrGroup

variable {H : HashFunction} {G : SchnorrGroup} {x : Ciphertext} {key : Element} {m : Nat}

/-! ### Bounds -/

namespace SchnorrGroup

theorem isMember_of_modEq {y z : Element} (h : G.isMember y = true)
    (hmod : z.toNat ≡ y.toNat [MOD G.p.toNat]) : G.isMember z = decide (z = y) := by
  obtain ⟨-, hlt, -⟩ := isMember_iff.1 h
  rw [Bool.eq_iff_iff, decide_eq_true_iff]
  constructor
  · intro hz
    obtain ⟨-, hlt', -⟩ := isMember_iff.1 hz
    exact Element.ext (hmod.eq_of_lt_of_lt hlt' hlt)
  · rintro rfl
    exact h

theorem isReduced_of_modEq {s t : Scalar} (h : G.isReduced s = true)
    (hmod : t.toNat ≡ s.toNat [MOD G.q.toNat]) : G.isReduced t = decide (t = s) := by
  rw [Bool.eq_iff_iff, decide_eq_true_iff]
  constructor
  · intro ht
    exact Scalar.ext (hmod.eq_of_lt_of_lt (isReduced_iff.1 ht) (isReduced_iff.1 h))
  · rintro rfl
    exact h

end SchnorrGroup

/-! ### Transcripts -/

namespace Transcript

/-- Two transcripts agree modulo `p` and `q`. -/
structure SameClasses (G : SchnorrGroup) (t t' : Transcript) : Prop where
  a : t'.a.toNat ≡ t.a.toNat [MOD G.p.toNat]
  b : t'.b.toNat ≡ t.b.toNat [MOD G.p.toNat]
  c : t'.c.toNat ≡ t.c.toNat [MOD G.q.toNat]
  v : t'.v.toNat ≡ t.v.toNat [MOD G.q.toNat]

/-- Only challenge and response are replaced. -/
structure SameScalarClasses (G : SchnorrGroup) (t t' : Transcript) : Prop where
  commitment : t'.toCommitment = t.toCommitment
  c : t'.c.toNat ≡ t.c.toNat [MOD G.q.toNat]
  v : t'.v.toNat ≡ t.v.toNat [MOD G.q.toNat]

/-- Only the commitment is replaced. -/
structure SameCommitmentClasses (G : SchnorrGroup) (t t' : Transcript) : Prop where
  a : t'.a.toNat ≡ t.a.toNat [MOD G.p.toNat]
  b : t'.b.toNat ≡ t.b.toNat [MOD G.p.toNat]
  c : t'.c = t.c
  v : t'.v = t.v

variable {t t' : Transcript}

theorem SameScalarClasses.sameClasses (h : SameScalarClasses G t t') : SameClasses G t t' where
  a := by rw [h.commitment]
  b := by rw [h.commitment]
  c := h.c
  v := h.v

theorem SameCommitmentClasses.sameClasses (h : SameCommitmentClasses G t t') :
    SameClasses G t t' where
  a := h.a
  b := h.b
  c := by rw [h.c]
  v := by rw [h.v]

theorem SameClasses.alphaHolds (h : SameClasses G t t') :
    t'.alphaHolds G x = t.alphaHolds G x := by
  rw [Bool.eq_iff_iff, alphaHolds_iff, alphaHolds_iff, h.c, h.v, h.a.mul_right]

theorem SameClasses.betaHolds (h : SameClasses G t t') :
    t'.betaHolds G x key m = t.betaHolds G x key m := by
  rw [Bool.eq_iff_iff, betaHolds_iff, betaHolds_iff, h.c, h.v, h.b.mul_right, h.c.mul_right]

end Transcript

/-! ### Zero-or-one proofs -/

namespace DisjunctiveProof

/-- What a check sees of the replacement of one proof by another: the bounds see whether the word is
still the same, and the check of the challenge whether the derived one is. -/
def unchanged (H : HashFunction) (G : SchnorrGroup) (x : Ciphertext)
    (proof proof' : DisjunctiveProof) : DisjunctiveCheck → Bool
  | .a0Bounds => proof'.zero.a = proof.zero.a
  | .b0Bounds => proof'.zero.b = proof.zero.b
  | .a1Bounds => proof'.one.a = proof.one.a
  | .b1Bounds => proof'.one.b = proof.one.b
  | .c0Bounds => proof'.zero.c = proof.zero.c
  | .c1Bounds => proof'.one.c = proof.one.c
  | .v0Bounds => proof'.zero.v = proof.zero.v
  | .v1Bounds => proof'.one.v = proof.one.v
  | .challenge => proof'.derivedChallenge H G x = proof.derivedChallenge H G x
  | .alphaBounds | .betaBounds | .alphaZero | .alphaOne | .betaZero | .betaOne => true

variable {proof proof' : DisjunctiveProof}

section SameClasses

variable (hvalid : (proof.checks H G x key).isValid = true)
  (h0 : proof.zero.SameClasses G proof'.zero) (h1 : proof.one.SameClasses G proof'.one)

include hvalid h0 h1

theorem holds_of_sameClasses (i : DisjunctiveCheck) :
    proof'.holds G (proof'.derivedChallenge H G x) x key i = unchanged H G x proof proof' i := by
  have hold := checks_isValid_iff.1 hvalid
  cases i with
  | alphaBounds =>
    rw [holds, unchanged]
    exact hold .alphaBounds
  | betaBounds =>
    rw [holds, unchanged]
    exact hold .betaBounds
  | a0Bounds => exact isMember_of_modEq (hold .a0Bounds) h0.a
  | b0Bounds => exact isMember_of_modEq (hold .b0Bounds) h0.b
  | a1Bounds => exact isMember_of_modEq (hold .a1Bounds) h1.a
  | b1Bounds => exact isMember_of_modEq (hold .b1Bounds) h1.b
  | c0Bounds => exact isReduced_of_modEq (hold .c0Bounds) h0.c
  | c1Bounds => exact isReduced_of_modEq (hold .c1Bounds) h1.c
  | v0Bounds => exact isReduced_of_modEq (hold .v0Bounds) h0.v
  | v1Bounds => exact isReduced_of_modEq (hold .v1Bounds) h1.v
  | challenge =>
    have hsum : G.add proof'.zero.c proof'.one.c = G.add proof.zero.c proof.one.c := by
      apply Scalar.ext
      rw [toNat_add, toNat_add]
      exact h0.c.add h1.c
    obtain ⟨hderived, -⟩ := holds_iff.1 hold
    rw [holds, unchanged, hsum, hderived]
  | alphaZero => exact h0.alphaHolds.trans (hold .alphaZero)
  | alphaOne => exact h1.alphaHolds.trans (hold .alphaOne)
  | betaZero => exact h0.betaHolds.trans (hold .betaZero)
  | betaOne => exact h1.betaHolds.trans (hold .betaOne)

theorem checks_of_sameClasses :
    proof'.checks H G x key =
      DisjunctiveCheck.all.map fun i => (i.name, unchanged H G x proof proof' i) := by
  simp only [checks, holds_of_sameClasses hvalid h0 h1]

theorem isValid_iff_eq_of_sameClasses :
    (proof'.checks H G x key).isValid = true ↔ proof' = proof := by
  constructor
  · intro h
    have hsame : ∀ i, unchanged H G x proof proof' i = true := by
      intro i
      rw [← holds_of_sameClasses hvalid h0 h1 i]
      exact checks_isValid_iff.1 h i
    have hzero : proof'.zero = proof.zero :=
      Transcript.ext (of_decide_eq_true (hsame .a0Bounds)) (of_decide_eq_true (hsame .b0Bounds))
        (of_decide_eq_true (hsame .c0Bounds)) (of_decide_eq_true (hsame .v0Bounds))
    have hone : proof'.one = proof.one :=
      Transcript.ext (of_decide_eq_true (hsame .a1Bounds)) (of_decide_eq_true (hsame .b1Bounds))
        (of_decide_eq_true (hsame .c1Bounds)) (of_decide_eq_true (hsame .v1Bounds))
    exact DisjunctiveProof.ext hzero hone
  · rintro rfl
    exact hvalid

end SameClasses

/-- If only scalars are replaced, the bounds of the replaced ones fail and nothing else. -/
theorem failed_of_sameScalarClasses (hvalid : (proof.checks H G x key).isValid = true)
    (h0 : proof.zero.SameScalarClasses G proof'.zero)
    (h1 : proof.one.SameScalarClasses G proof'.one) :
    (proof'.checks H G x key).failed = Checks.failed
      [("in_bounds_c0", proof'.zero.c = proof.zero.c), ("in_bounds_c1", proof'.one.c = proof.one.c),
        ("in_bounds_v0", proof'.zero.v = proof.zero.v),
        ("in_bounds_v1", proof'.one.v = proof.one.v)] := by
  have hderived : proof'.derivedChallenge H G x = proof.derivedChallenge H G x := by
    rw [derivedChallenge, derivedChallenge, h0.commitment, h1.commitment]
  rw [checks_of_sameClasses hvalid h0.sameClasses h1.sameClasses]
  simp only [DisjunctiveCheck.all, DisjunctiveCheck.name, unchanged, h0.commitment, h1.commitment,
    hderived, List.map_cons, List.map_nil, decide_true]
  simp only [↓Checks.failed_cons_true, Checks.failed_cons]

/-- If only commitments are replaced, the bounds of the replaced elements fail, and the check of the
challenge if another one is derived. -/
theorem failed_of_sameCommitmentClasses (hvalid : (proof.checks H G x key).isValid = true)
    (h0 : proof.zero.SameCommitmentClasses G proof'.zero)
    (h1 : proof.one.SameCommitmentClasses G proof'.one) :
    (proof'.checks H G x key).failed = Checks.failed
      [("in_bounds_a0", proof'.zero.a = proof.zero.a),
        ("in_bounds_b0", proof'.zero.b = proof.zero.b),
        ("in_bounds_a1", proof'.one.a = proof.one.a), ("in_bounds_b1", proof'.one.b = proof.one.b),
        ("consistent_c", proof'.derivedChallenge H G x = proof.derivedChallenge H G x)] := by
  rw [checks_of_sameClasses hvalid h0.sameClasses h1.sameClasses]
  simp only [DisjunctiveCheck.all, DisjunctiveCheck.name, unchanged, h0.c, h0.v, h1.c, h1.v,
    List.map_cons, List.map_nil, decide_true]
  simp only [↓Checks.failed_cons_true, Checks.failed_cons]

theorem equations_mem_checks (hvalid : (proof.checks H G x key).isValid = true)
    (h0 : proof.zero.SameClasses G proof'.zero) (h1 : proof.one.SameClasses G proof'.one) :
    ∀ name ∈ ["consistent_gv0", "consistent_gv1", "consistent_kv0", "consistent_gc1kv1"],
      (name, true) ∈ proof'.checks H G x key := by
  have hmem : ∀ i, unchanged H G x proof proof' i = true →
      (i.name, true) ∈ proof'.checks H G x key := by
    intro i hi
    rw [checks_of_sameClasses hvalid h0 h1]
    exact List.mem_map.2 ⟨i, DisjunctiveCheck.mem_all i, by rw [hi]⟩
  simp only [List.forall_mem_cons]
  exact ⟨hmem .alphaZero rfl, hmem .alphaOne rfl, hmem .betaZero rfl, hmem .betaOne rfl, nofun⟩

end DisjunctiveProof

/-! ### Proofs of a known plaintext -/

namespace ConstantProof

/-- What a check sees of the replacement of challenge and response: the bounds and the check of the
challenge see whether the word is still the same, and so does the equation that the bounds gate. -/
def unchanged (proof proof' : ConstantProof) : ConstantCheck → Bool
  | .cBounds => proof'.c = proof.c
  | .vBounds => proof'.v = proof.v
  | .challenge => proof'.c = proof.c
  | .alphaEquation => proof'.c = proof.c ∧ proof'.v = proof.v
  | .alphaBounds | .betaBounds | .aBounds | .bBounds | .constantBounds | .saneConstant
  | .betaEquation => true

variable {proof proof' : ConstantProof}

section SameScalarClasses

variable (hvalid : (proof.checks H G x key).isValid = true)
  (h : proof.SameScalarClasses G proof'.toTranscript) (hconstant : proof'.constant = proof.constant)

include hvalid h hconstant

theorem holds_of_sameScalarClasses (i : ConstantCheck) :
    proof'.holds G (proof'.derivedChallenge H G x) x key i = unchanged proof proof' i := by
  have hold := checks_isValid_iff.1 hvalid
  obtain ⟨hderived, -⟩ := holds_iff.1 hold
  have hderived' : proof'.derivedChallenge H G x = proof.c := by
    rw [derivedChallenge, h.commitment]
    exact hderived
  have ha : proof'.a = proof.a := congrArg Commitment.a h.commitment
  have hb : proof'.b = proof.b := congrArg Commitment.b h.commitment
  have hc := isReduced_of_modEq (hold .cBounds) h.c
  have hv := isReduced_of_modEq (hold .vBounds) h.v
  -- the equations are taken at the derived challenge, which stays the same
  have hequations : Transcript.SameClasses G { proof with c := proof.c }
      { proof' with c := proof.c } := by
    refine ⟨?_, ?_, rfl, h.v⟩
    · show proof'.a.toNat ≡ proof.a.toNat [MOD G.p.toNat]
      rw [ha]
    · show proof'.b.toNat ≡ proof.b.toNat [MOD G.p.toNat]
      rw [hb]
  rw [hderived] at hold
  rw [hderived']
  cases i with
  | alphaBounds => exact hold .alphaBounds
  | betaBounds => exact hold .betaBounds
  | aBounds =>
    rw [holds, ha]
    exact hold .aBounds
  | bBounds =>
    rw [holds, hb]
    exact hold .bBounds
  | cBounds => exact hc
  | vBounds => exact hv
  | constantBounds =>
    rw [holds, hconstant]
    exact hold .constantBounds
  | saneConstant =>
    rw [holds, hconstant]
    exact hold .saneConstant
  | challenge => exact decide_eq_decide.2 eq_comm
  | alphaEquation =>
    have hequation := hold .alphaEquation
    simp only [holds, Bool.and_eq_true] at hequation
    obtain ⟨⟨⟨⟨-, hamember⟩, hα⟩, -⟩, hequation⟩ := hequation
    rw [holds, unchanged, hv, ha, hamember, hα, hc, hequations.alphaHolds, hequation,
      Bool.and_true, Bool.and_true, Bool.and_true, Bool.and_comm, Bool.decide_and]
  | betaEquation =>
    have hplaintext : proof'.plaintext G = proof.plaintext G := by
      rw [plaintext, plaintext, hconstant]
    rw [holds, hconstant, hplaintext, hequations.betaHolds]
    exact hold .betaEquation

theorem checks_of_sameScalarClasses :
    proof'.checks H G x key =
      ConstantCheck.all.map fun i => (i.name, unchanged proof proof' i) := by
  simp only [checks, holds_of_sameScalarClasses hvalid h hconstant]

/-- The bounds of the replaced scalars fail, the check of a replaced challenge, and in any case the
equation that the bounds gate. -/
theorem failed_of_sameScalarClasses :
    (proof'.checks H G x key).failed = Checks.failed
      [("in_bounds_c", proof'.c = proof.c), ("in_bounds_v", proof'.v = proof.v),
        ("consistent_c", proof'.c = proof.c),
        ("consistent_gv", proof'.c = proof.c ∧ proof'.v = proof.v)] := by
  rw [checks_of_sameScalarClasses hvalid h hconstant]
  simp only [ConstantCheck.all, ConstantCheck.name, unchanged, List.map_cons, List.map_nil]
  simp only [↓Checks.failed_cons_true, Checks.failed_cons]

theorem isValid_iff_eq_of_sameScalarClasses :
    (proof'.checks H G x key).isValid = true ↔ proof' = proof := by
  constructor
  · intro hvalid'
    have hsame : ∀ i, unchanged proof proof' i = true := by
      intro i
      rw [← holds_of_sameScalarClasses hvalid h hconstant i]
      exact checks_isValid_iff.1 hvalid' i
    exact ConstantProof.ext (congrArg Commitment.a h.commitment)
      (congrArg Commitment.b h.commitment) (of_decide_eq_true (hsame .cBounds))
      (of_decide_eq_true (hsame .vBounds)) hconstant
  · rintro rfl
    exact hvalid

end SameScalarClasses

end ConstantProof

/-! ### Replacements -/

/-- **Exactly the bounds of the replaced fields fail**, for every ciphertext, every word as the key
and every hash function.  In an accepted zero-or-one proof, replacing scalars by congruent words
fails the bounds of those that differ.  Replacing elements fails the bounds of those that differ,
and the check of the challenge if another one is derived.  The equations hold of all such words, but
only the words of the proof itself are accepted.  In an accepted proof of a known plaintext,
replacing the response fails its bounds and the equation of the nonce, and replacing the challenge
its bounds, its check and the same equation. -/
theorem failed_representatives (H : HashFunction) (G : SchnorrGroup) (x : Ciphertext)
    (key : Element) :
    (∀ proof proof' : DisjunctiveProof, (proof.checks H G x key).isValid = true →
      proof.zero.SameScalarClasses G proof'.zero → proof.one.SameScalarClasses G proof'.one →
        (proof'.checks H G x key).failed = Checks.failed
          [("in_bounds_c0", proof'.zero.c = proof.zero.c),
            ("in_bounds_c1", proof'.one.c = proof.one.c),
            ("in_bounds_v0", proof'.zero.v = proof.zero.v),
            ("in_bounds_v1", proof'.one.v = proof.one.v)]) ∧
    (∀ proof proof' : DisjunctiveProof, (proof.checks H G x key).isValid = true →
      proof.zero.SameCommitmentClasses G proof'.zero →
      proof.one.SameCommitmentClasses G proof'.one →
        (proof'.checks H G x key).failed = Checks.failed
          [("in_bounds_a0", proof'.zero.a = proof.zero.a),
            ("in_bounds_b0", proof'.zero.b = proof.zero.b),
            ("in_bounds_a1", proof'.one.a = proof.one.a),
            ("in_bounds_b1", proof'.one.b = proof.one.b),
            ("consistent_c", proof'.derivedChallenge H G x = proof.derivedChallenge H G x)]) ∧
    (∀ proof proof' : DisjunctiveProof, (proof.checks H G x key).isValid = true →
      proof.zero.SameClasses G proof'.zero → proof.one.SameClasses G proof'.one →
        (∀ name ∈ ["consistent_gv0", "consistent_gv1", "consistent_kv0", "consistent_gc1kv1"],
          (name, true) ∈ proof'.checks H G x key) ∧
        ((proof'.checks H G x key).isValid = true ↔ proof' = proof)) ∧
    ∀ proof proof' : ConstantProof, (proof.checks H G x key).isValid = true →
      proof.SameScalarClasses G proof'.toTranscript → proof'.constant = proof.constant →
        (proof'.checks H G x key).failed = Checks.failed
          [("in_bounds_c", proof'.c = proof.c), ("in_bounds_v", proof'.v = proof.v),
            ("consistent_c", proof'.c = proof.c),
            ("consistent_gv", proof'.c = proof.c ∧ proof'.v = proof.v)] ∧
        ((proof'.checks H G x key).isValid = true ↔ proof' = proof) := by
  refine ⟨?_, ?_, ?_, ?_⟩
  · intro proof proof' h h0 h1
    exact DisjunctiveProof.failed_of_sameScalarClasses h h0 h1
  · intro proof proof' h h0 h1
    exact DisjunctiveProof.failed_of_sameCommitmentClasses h h0 h1
  · intro proof proof' h h0 h1
    exact ⟨DisjunctiveProof.equations_mem_checks h h0 h1,
      DisjunctiveProof.isValid_iff_eq_of_sameClasses h h0 h1⟩
  · intro proof proof' h hscalars hconstant
    exact ⟨ConstantProof.failed_of_sameScalarClasses h hscalars hconstant,
      ConstantProof.isValid_iff_eq_of_sameScalarClasses h hscalars hconstant⟩

/-- In a group of order 11, where the challenge is always 3: a response and a challenge of a
zero-or-one proof, one of its elements, and the challenge of a proof of a known plaintext, each with
the modulus added. -/
theorem failed_representatives_small :
    let H : HashFunction := fun _ => (Vector.replicate 31 0).push 3
    let x : Ciphertext := ⟨small.toElement 12, small.toElement 3⟩
    let key := smallKeys.publicKey
    let proof : DisjunctiveProof :=
      ⟨.simulate small x key 0 (small.toScalar 1) (small.toScalar 2),
        .simulate small x key 1 (small.toScalar 2) (small.toScalar 4)⟩
    let scalars : DisjunctiveProof :=
      { zero := { proof.zero with v := ⟨⟨13, Word.lt_limit_of_lt (by decide)⟩⟩ }
        one := { proof.one with c := ⟨⟨13, Word.lt_limit_of_lt (by decide)⟩⟩ } }
    let element : DisjunctiveProof :=
      { proof with one := { proof.one with a := ⟨⟨35, Word.lt_limit_of_lt (by decide)⟩⟩ } }
    let claim : ConstantProof :=
      ⟨(Commitment.ofNonce small key (small.toScalar 8)).respond small (small.toScalar 8)
        (small.toScalar 5) (small.toScalar 3), 0⟩
    let challenge : ConstantProof :=
      { claim with c := ⟨⟨14, Word.lt_limit_of_lt (by decide)⟩⟩ }
    (proof.checks H small x key).isValid = true ∧
      (scalars.checks H small x key).failed = ["in_bounds_c1", "in_bounds_v0"] ∧
      (element.checks H small x key).failed = ["in_bounds_a1"] ∧
      (claim.checks H small x key).isValid = true ∧
      (challenge.checks H small x key).failed =
        ["in_bounds_c", "consistent_c", "consistent_gv"] := by
  intro H x key proof scalars element claim challenge
  have hproof : proof.derivedChallenge H small x = small.toScalar 3 := challenge_eq_toScalar
  have helement : element.derivedChallenge H small x = small.toScalar 3 := challenge_eq_toScalar
  have hclaim : claim.derivedChallenge H small x = small.toScalar 3 := challenge_eq_toScalar
  have hvalid : (proof.checks H small x key).isValid = true :=
    DisjunctiveProof.isValid_of_derivedChallenge hproof (by decide +kernel)
  have hvalid' : (claim.checks H small x key).isValid = true :=
    ConstantProof.isValid_of_derivedChallenge hclaim (by decide +kernel)
  obtain ⟨hscalars, hcommitments, -, hclaims⟩ := failed_representatives H small x key
  refine ⟨hvalid, ?_, ?_, hvalid', ?_⟩
  · have hfailed := hscalars proof scalars hvalid ⟨rfl, rfl, by decide +kernel⟩
      ⟨rfl, by decide +kernel, rfl⟩
    exact hfailed.trans (by decide +kernel)
  · have hfailed := hcommitments proof element hvalid ⟨rfl, rfl, rfl, rfl⟩
      ⟨by decide +kernel, rfl, rfl, rfl⟩
    rw [hproof, helement] at hfailed
    exact hfailed.trans (by decide +kernel)
  · have hfailed := hclaims claim challenge hvalid' ⟨rfl, by decide +kernel, rfl⟩ rfl
    exact hfailed.1.trans (by decide +kernel)

end BallotProof
