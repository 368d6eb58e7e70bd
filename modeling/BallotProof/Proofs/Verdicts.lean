import BallotProof.Diagnostic
import BallotProof.Proofs.Equations

/-!
# Verdicts as statements about transcripts

All checks of a proof pass if and only if the ciphertext consists of members, every transcript in
the proof passes for its plaintext, and what the challenge is derived from gives the challenge.

* `DisjunctiveProof.holds_iff` : the fifteen checks of a zero-or-one proof, and
  `DisjunctiveProof.holds_of_ne_challenge_iff` those that do not look at the hash function.
* `ConstantProof.holds_iff` : the eleven checks of a proof of a known plaintext.  The equations are
  taken at the derived challenge and the plaintext goes through a scalar, but neither shows in the
  verdict.
* `DisjunctiveProof.outcome?_checks` : a check of a zero-or-one proof is found by its name.
* `Proof.verifyWith_of_isValid` : a valid proof is accepted without a word to the sink.
-/

namespace BallotProof

open SchnorrGroup

variable {H : HashFunction} {G : SchnorrGroup} {x : Ciphertext} {key : Element} {c : Scalar}

/-! ### Zero-or-one proofs -/

namespace DisjunctiveProof

variable {proof : DisjunctiveProof}

theorem holds_of_ne_challenge_iff :
    (∀ i, i ≠ .challenge → proof.holds G c x key i = true) ↔
      (G.isMember x.alpha = true ∧ G.isMember x.beta = true) ∧
        proof.zero.Passes G x key 0 ∧ proof.one.Passes G x key 1 := by
  constructor
  · intro h
    refine ⟨⟨h .alphaBounds nofun, h .betaBounds nofun⟩, ?_, ?_⟩
    · exact ⟨h .a0Bounds nofun, h .b0Bounds nofun, h .c0Bounds nofun, h .v0Bounds nofun,
        h .alphaZero nofun, h .betaZero nofun⟩
    · exact ⟨h .a1Bounds nofun, h .b1Bounds nofun, h .c1Bounds nofun, h .v1Bounds nofun,
        h .alphaOne nofun, h .betaOne nofun⟩
  · rintro ⟨⟨hα, hβ⟩, h0, h1⟩ i hi
    cases i with
    | alphaBounds => exact hα
    | betaBounds => exact hβ
    | a0Bounds => exact h0.a_member
    | b0Bounds => exact h0.b_member
    | a1Bounds => exact h1.a_member
    | b1Bounds => exact h1.b_member
    | c0Bounds => exact h0.c_reduced
    | c1Bounds => exact h1.c_reduced
    | v0Bounds => exact h0.v_reduced
    | v1Bounds => exact h1.v_reduced
    | challenge => exact absurd rfl hi
    | alphaZero => exact h0.alpha
    | alphaOne => exact h1.alpha
    | betaZero => exact h0.beta
    | betaOne => exact h1.beta

theorem holds_iff :
    (∀ i, proof.holds G c x key i = true) ↔
      c = G.add proof.zero.c proof.one.c ∧
        (G.isMember x.alpha = true ∧ G.isMember x.beta = true) ∧
          proof.zero.Passes G x key 0 ∧ proof.one.Passes G x key 1 := by
  have hchallenge : proof.holds G c x key .challenge = true ↔ c = G.add proof.zero.c proof.one.c :=
    decide_eq_true_iff
  rw [← hchallenge, ← holds_of_ne_challenge_iff (c := c)]
  constructor
  · exact fun h => ⟨h .challenge, fun i _ => h i⟩
  · rintro ⟨hc, h⟩ i
    by_cases hi : i = .challenge
    · rw [hi]
      exact hc
    · exact h i hi

theorem checks_of_holds (h : ∀ i, proof.holds G (proof.derivedChallenge H G x) x key i = true) :
    proof.checks H G x key = DisjunctiveCheck.all.map fun i => (i.name, true) := by
  simp only [checks, h]

/-- Where the derived challenge is known, the checks can be run at it. -/
theorem isValid_of_derivedChallenge (hc : proof.derivedChallenge H G x = c)
    (h : ∀ i ∈ DisjunctiveCheck.all, proof.holds G c x key i = true) :
    (proof.checks H G x key).isValid = true := by
  rw [checks_isValid_iff, hc]
  exact fun i => h i (DisjunctiveCheck.mem_all i)

theorem outcome?_checks (i : DisjunctiveCheck) :
    (proof.checks H G x key).outcome? i.name =
      some (proof.holds G (proof.derivedChallenge H G x) x key i) := by
  refine Checks.outcome?_eq_some_of_mem ?_ (List.mem_map.2 ⟨i, DisjunctiveCheck.mem_all i, rfl⟩)
  rw [checks, List.map_map]
  exact DisjunctiveCheck.nodup_names

theorem failed_checks :
    (proof.checks H G x key).failed =
      (DisjunctiveCheck.all.filter fun i =>
        !proof.holds G (proof.derivedChallenge H G x) x key i).map DisjunctiveCheck.name := by
  simp only [checks, Checks.failed, List.filter_map, List.map_map, Function.comp_def]

theorem failed_checks_eq_singleton {i : DisjunctiveCheck}
    (h : ∀ j, proof.holds G (proof.derivedChallenge H G x) x key j = true ↔ j ≠ i) :
    (proof.checks H G x key).failed = [i.name] := by
  have hfails : (fun j => !proof.holds G (proof.derivedChallenge H G x) x key j) =
      fun j => decide (j = i) := by
    funext j
    rw [Bool.not_eq_eq_eq_not, ← decide_not, Bool.eq_iff_iff, decide_eq_true_iff, h j]
  rw [failed_checks, hfails]
  cases i <;> rfl

end DisjunctiveProof

/-! ### Proofs of a known plaintext -/

namespace ConstantProof

variable {proof : ConstantProof}

theorem plaintext_eq (h0 : 0 ≤ proof.constant.toInt) (hlt : proof.constant.toInt < G.q.toNat) :
    proof.plaintext G = proof.constant.toInt.toNat := by
  obtain ⟨s, hs⟩ := Option.isSome_iff_exists.1 (isSome_scalarOfInt?_iff.2 ⟨h0, hlt⟩)
  have hvalue := (scalarOfInt?_eq_some_iff.1 hs).1
  rw [plaintext, hs, Option.getD_some, hvalue, Int.toNat_natCast]

/-- The plaintexts that can be proven at all. -/
def InRange (G : SchnorrGroup) (constant : Int64) : Prop :=
  0 ≤ constant.toInt ∧ constant.toInt < min (G.q.toNat : Int) maxConstant

theorem holds_iff :
    (∀ i, proof.holds G c x key i = true) ↔
      c = proof.c ∧ (G.isMember x.alpha = true ∧ G.isMember x.beta = true) ∧
        InRange G proof.constant ∧ proof.Passes G x key proof.constant.toInt.toNat := by
  constructor
  · intro h
    obtain rfl : c = proof.c := of_decide_eq_true (h .challenge)
    obtain ⟨h0, hq⟩ := isSome_scalarOfInt?_iff.1 (h .constantBounds)
    have hsane := h .saneConstant
    have hα := h .alphaEquation
    have hβ := h .betaEquation
    simp only [holds, Bool.and_eq_true, decide_eq_true_eq] at hsane hα hβ
    rw [plaintext_eq h0 hq] at hβ
    refine ⟨rfl, ⟨h .alphaBounds, h .betaBounds⟩, ⟨h0, lt_min hq hsane.2⟩, ?_⟩
    exact ⟨h .aBounds, h .bBounds, h .cBounds, h .vBounds, hα.2, hβ.2⟩
  · rintro ⟨rfl, ⟨hα, hβ⟩, ⟨h0, hrange⟩, h⟩ i
    obtain ⟨hq, hsane⟩ := lt_min_iff.1 hrange
    have hsome : (G.scalarOfInt? proof.constant).isSome = true :=
      isSome_scalarOfInt?_iff.2 ⟨h0, hq⟩
    cases i with
    | alphaBounds => exact hα
    | betaBounds => exact hβ
    | aBounds => exact h.a_member
    | bBounds => exact h.b_member
    | cBounds => exact h.c_reduced
    | vBounds => exact h.v_reduced
    | constantBounds => exact hsome
    | saneConstant => simp only [holds, h0, hsane, decide_true, Bool.and_self]
    | challenge => exact decide_eq_true rfl
    | alphaEquation =>
      simp only [holds, h.v_reduced, h.a_member, hα, h.c_reduced, Bool.true_and]
      exact h.alpha
    | betaEquation =>
      simp only [holds, hsome, Bool.true_and, plaintext_eq h0 hq]
      exact h.beta

theorem checks_of_holds (h : ∀ i, proof.holds G (proof.derivedChallenge H G x) x key i = true) :
    proof.checks H G x key = ConstantCheck.all.map fun i => (i.name, true) := by
  simp only [checks, h]

theorem isValid_of_derivedChallenge (hc : proof.derivedChallenge H G x = c)
    (h : ∀ i ∈ ConstantCheck.all, proof.holds G c x key i = true) :
    (proof.checks H G x key).isValid = true := by
  rw [checks_isValid_iff, hc]
  exact fun i => h i (ConstantCheck.mem_all i)

end ConstantProof

/-! ### Verification -/

/-- **A valid proof is accepted without a word to the sink.** -/
theorem Proof.verifyWith_of_isValid {proof : Proof} {m : Type → Type} [Monad m]
    (sink : Diagnostic → m Unit) (h : (proof.checks H G x key).isValid = true) :
    proof.verifyWith H G x key sink = pure true :=
  report_of_isValid _ _ _ h

end BallotProof
