import BallotProof.Proofs.Encryption
import BallotProof.Transcript
import Mathlib.Tactic.LinearCombination

/-!
# The equations of a transcript over members

Over members the two equations of a transcript are linear in the exponents:
`v • base = a + c • α` and `(c * m) • base + v • κ = b + c • β`.

* `Transcript.Passes` collects what the checks ask of one transcript.
* `Commitment.respond_passes` : **an honest run passes** for the plaintext that the ciphertext
  hides.
* `Transcript.simulate_passes` : **a simulated run passes** for every plaintext, whatever the
  ciphertext hides.
* `Transcript.passes_iff_exponents` : for prime `q` and values that are powers of the generator, the
  verdict is one on the exponents.
* `Transcript.eq_ofClasses_extract` : **special soundness.**  Two runs with one commitment and
  different challenges give the nonce away, and the ciphertext hides the plaintext that the runs
  are about.
-/

namespace BallotProof

open SchnorrGroup

/-- What the checks ask of one transcript for the plaintext `m`: its values are reduced members and
scalars, and both equations hold. -/
structure Transcript.Passes (G : SchnorrGroup) (x : Ciphertext) (key : Element) (m : Nat)
    (t : Transcript) : Prop where
  a_member : G.isMember t.a = true
  b_member : G.isMember t.b = true
  c_reduced : G.isReduced t.c = true
  v_reduced : G.isReduced t.v = true
  alpha : t.alphaHolds G x = true
  beta : t.betaHolds G x key m = true

variable {G : SchnorrGroup} {x : Ciphertext} {κ α β a b : G.Members} {m : Nat}

namespace Transcript

/-! ### The equations -/

theorem exponent_shift (c : Scalar) (m : Nat) : G.exponent (shift G c m) = G.exponent c * m := by
  rw [shift, exponent_mul, exponent_toScalar]

theorem alphaHolds_element_iff {t : Transcript} (hα : x.alpha = G.element α)
    (ha : t.a = G.element a) :
    t.alphaHolds G x = true ↔ G.exponent t.v • G.base = a + G.exponent t.c • α := by
  rw [alphaHolds, decide_eq_true_iff, hα, ha, generatorPow_eq, pow_element, prod_element_pair,
    element_inj]

theorem betaHolds_element_iff {t : Transcript} (hβ : x.beta = G.element β)
    (hb : t.b = G.element b) :
    t.betaHolds G x (G.element κ) m = true ↔
      (G.exponent t.c * m) • G.base + G.exponent t.v • κ = b + G.exponent t.c • β := by
  rw [betaHolds, decide_eq_true_iff, hβ, hb, generatorPow_eq, exponent_shift, pow_element,
    pow_element, prod_element_pair, prod_element_pair, element_inj]

end Transcript

/-! ### Honest runs -/

namespace Commitment

theorem ofNonce_element (κ : G.Members) (u : Scalar) :
    ofNonce G (G.element κ) u =
      ⟨G.element (G.exponent u • G.base), G.element (G.exponent u • κ)⟩ := by
  rw [ofNonce, generatorPow_eq, pow_element]

/-- **An honest run passes** for the plaintext that the ciphertext hides. -/
theorem respond_passes (κ : G.Members) (m : Nat) (u r : Scalar) {c : Scalar}
    (hc : c.toNat < G.q.toNat) :
    ((ofNonce G (G.element κ) u).respond G u r c).Passes G
      (Ciphertext.ofClasses κ m (G.exponent r)) (G.element κ) m where
  a_member := by rw [ofNonce_element]; exact isMember_element _
  b_member := by rw [ofNonce_element]; exact isMember_element _
  c_reduced := isReduced_iff.2 hc
  v_reduced := SchnorrGroup.isReduced_iff.2 (addMul_lt ..)
  alpha := by
    rw [ofNonce_element, Transcript.alphaHolds_element_iff rfl rfl]
    simp only [respond, exponent_addMul]
    module
  beta := by
    rw [ofNonce_element, Transcript.betaHolds_element_iff rfl rfl]
    simp only [respond, exponent_addMul]
    module

end Commitment

/-! ### Simulated runs -/

namespace Transcript

theorem simulate_element (hα : x.alpha = G.element α) (hβ : x.beta = G.element β) (κ : G.Members)
    (m : Nat) (c v : Scalar) :
    simulate G x (G.element κ) m c v =
      ⟨⟨G.element (G.exponent v • G.base - G.exponent c • α),
        G.element (G.exponent v • κ + (G.exponent c * m) • G.base - G.exponent c • β)⟩, c, v⟩ := by
  simp only [simulate, hα, hβ, generatorPow_eq, pow_element, prod_element_pair,
    prod_element_triple, exponent_neg, exponent_shift, neg_smul, ← sub_eq_add_neg]

/-- **A simulated run passes** for every plaintext, whatever the ciphertext hides. -/
theorem simulate_passes (hα : x.alpha = G.element α) (hβ : x.beta = G.element β) (κ : G.Members)
    (m : Nat) {c v : Scalar} (hc : c.toNat < G.q.toNat) (hv : v.toNat < G.q.toNat) :
    (simulate G x (G.element κ) m c v).Passes G x (G.element κ) m where
  a_member := by rw [simulate_element hα hβ]; exact isMember_element _
  b_member := by rw [simulate_element hα hβ]; exact isMember_element _
  c_reduced := isReduced_iff.2 hc
  v_reduced := isReduced_iff.2 hv
  alpha := by
    rw [simulate_element hα hβ, alphaHolds_element_iff hα rfl]
    module
  beta := by
    rw [simulate_element hα hβ, betaHolds_element_iff hβ rfl]
    module

/-! ### Known exponents -/

section Exponents

variable {s r u w m' : ZMod G.q.toNat}

theorem alphaHolds_iff_exponents (hq : G.q.toNat.Prime) {t : Transcript}
    (ha : t.a = G.element (u • G.base)) :
    t.alphaHolds G (Ciphertext.ofClasses κ m' r) = true ↔
      G.exponent t.v = u + G.exponent t.c * r := by
  rw [alphaHolds_element_iff rfl ha, smul_smul, ← add_smul, smul_base_inj hq]

theorem betaHolds_iff_exponents (hq : G.q.toNat.Prime) {t : Transcript}
    (hb : t.b = G.element (w • G.base)) :
    t.betaHolds G (Ciphertext.ofClasses (s • G.base) m' r) (G.element (s • G.base)) m = true ↔
      G.exponent t.c * m + G.exponent t.v * s = w + G.exponent t.c * (m' + r * s) := by
  rw [betaHolds_element_iff rfl hb, smul_smul, smul_smul, ← add_smul, ← add_smul, smul_smul,
    ← add_smul, smul_base_inj hq]

/-- **The verdict on known exponents.**  The response is determined by the first equation, and the
second one compares what the claim is off with what the commitment is off. -/
theorem passes_iff_exponents (hq : G.q.toNat.Prime) {t : Transcript}
    (ha : t.a = G.element (u • G.base)) (hb : t.b = G.element (w • G.base)) :
    t.Passes G (Ciphertext.ofClasses (s • G.base) m' r) (G.element (s • G.base)) m ↔
      t.c.toNat < G.q.toNat ∧
        (t.v.toNat < G.q.toNat ∧ G.exponent t.v = u + G.exponent t.c * r) ∧
          G.exponent t.c * (m - m') = w - s * u := by
  constructor
  · intro h
    have eα := (alphaHolds_iff_exponents hq ha).1 h.alpha
    have eβ := (betaHolds_iff_exponents hq hb).1 h.beta
    refine ⟨isReduced_iff.1 h.c_reduced, ⟨isReduced_iff.1 h.v_reduced, eα⟩, ?_⟩
    rw [eα] at eβ
    linear_combination eβ
  · rintro ⟨hc, ⟨hv, eα⟩, eβ⟩
    refine ⟨by rw [ha]; exact isMember_element _, by rw [hb]; exact isMember_element _,
      isReduced_iff.2 hc, isReduced_iff.2 hv, (alphaHolds_iff_exponents hq ha).2 eα,
      (betaHolds_iff_exponents hq hb).2 ?_⟩
    rw [eα]
    linear_combination eβ

end Exponents

/-! ### Two runs with one commitment -/

/-- The nonce that two runs with one commitment give away. -/
def extract (G : SchnorrGroup) (t t' : Transcript) : ZMod G.q.toNat :=
  (G.exponent t.c - G.exponent t'.c)⁻¹ * (G.exponent t.v - G.exponent t'.v)

/-- **Special soundness.**  Two runs with one commitment and different challenges give the nonce
away, and the ciphertext hides the plaintext that the runs are about. -/
theorem eq_ofClasses_extract (hq : G.q.toNat.Prime) {t t' : Transcript}
    (hα : x.alpha = G.element α) (hβ : x.beta = G.element β)
    (h : t.Passes G x (G.element κ) m) (h' : t'.Passes G x (G.element κ) m)
    (hcommit : t.toCommitment = t'.toCommitment) (hne : t.c ≠ t'.c) :
    x = Ciphertext.ofClasses κ m (extract G t t') := by
  have := Fact.mk hq
  obtain ⟨a, ha⟩ := isMember_iff_exists.1 h.a_member
  obtain ⟨b, hb⟩ := isMember_iff_exists.1 h.b_member
  have ha' : t'.a = G.element a := by rw [← hcommit, ha]
  have hb' : t'.b = G.element b := by rw [← hcommit, hb]
  have eα := (alphaHolds_element_iff hα ha).1 h.alpha
  have eα' := (alphaHolds_element_iff hα ha').1 h'.alpha
  have eβ := (betaHolds_element_iff hβ hb).1 h.beta
  have eβ' := (betaHolds_element_iff hβ hb').1 h'.beta
  have hδ : G.exponent t.c - G.exponent t'.c ≠ 0 := by
    intro hzero
    exact hne (scalar_ext (isReduced_iff.1 h.c_reduced) (isReduced_iff.1 h'.c_reduced)
      (sub_eq_zero.1 hzero))
  -- the commitment cancels in the difference of the two equations
  have dα : (G.exponent t.c - G.exponent t'.c) • α =
      (G.exponent t.v - G.exponent t'.v) • G.base := by
    calc (G.exponent t.c - G.exponent t'.c) • α
        = (a + G.exponent t.c • α) - (a + G.exponent t'.c • α) := by module
      _ = (G.exponent t.v - G.exponent t'.v) • G.base := by rw [← eα, ← eα', sub_smul]
  have dβ : (G.exponent t.c - G.exponent t'.c) • β =
      (G.exponent t.c - G.exponent t'.c) • ((m : ZMod G.q.toNat) • G.base) +
        (G.exponent t.v - G.exponent t'.v) • κ := by
    calc (G.exponent t.c - G.exponent t'.c) • β
        = (b + G.exponent t.c • β) - (b + G.exponent t'.c • β) := by module
      _ = (G.exponent t.c - G.exponent t'.c) • ((m : ZMod G.q.toNat) • G.base) +
          (G.exponent t.v - G.exponent t'.v) • κ := by rw [← eβ, ← eβ']; module
  have hα' : α = extract G t t' • G.base := by
    rw [extract, mul_smul, eq_inv_smul_iff₀ hδ, dα]
  have hβ' : β = (m : ZMod G.q.toNat) • G.base + extract G t t' • κ := by
    rw [extract, mul_smul, ← inv_smul_smul₀ hδ ((m : ZMod G.q.toNat) • G.base), ← smul_add,
      eq_inv_smul_iff₀ hδ, dβ]
  exact Ciphertext.ext (by rw [hα, hα']; rfl) (by rw [hβ, hβ']; rfl)

end Transcript

end BallotProof
