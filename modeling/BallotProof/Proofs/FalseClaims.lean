import BallotProof.Proofs.Completeness

/-!
# What becomes of false claims

The builders take the nonce and the plaintext on trust.  In a group of prime order the verdict on
what they build says whether these belong to the ciphertext.  Of a zero-or-one proof, the simulated
transcript never fails, and the other one fails unless its challenge is zero.  Of a proof of a known
plaintext, the range of the claim is checked besides.

* `Commitment.respond_alphaHolds_iff`, `Commitment.respond_betaHolds_iff` : the equations of an
  honest run for any claim about nonce and plaintext.
* `Commitment.respond_passes_iff` : **an honest run for a false claim passes only if its challenge
  is zero.**
* `DisjunctiveProof.build_holds_iff` : the same for a zero-or-one proof, with free challenge and
  nonces, and `DisjunctiveProof.build_holds_iff_ne` which check fails.  Both start from the parts of
  such a proof, `DisjunctiveProof.build_branches`.
* `DisjunctiveProof.checks_prove` : **the verdict on every claim of a selection**, and the one check
  that fails for the right nonce and the wrong selection.
* `ConstantProof.build_holds_eq` : every check of a proof of a known plaintext, with free challenge
  and nonce, that is built from the right nonce of the ciphertext.
* `ConstantProof.checks_prove_constant` : **the verdict on every claim of a plaintext**, however
  large the order is.
-/

namespace BallotProof

open SchnorrGroup

variable {G : SchnorrGroup} {x : Ciphertext} {key : Element}

/-! ### Honest runs for any claim -/

namespace Commitment

section Exponents

variable {s m' r : ZMod G.q.toNat} {u r' c : Scalar} {m : Nat}

theorem respond_alphaHolds_iff (hq : G.q.toNat.Prime) :
    ((ofNonce G (G.element (s • G.base)) u).respond G u r' c).alphaHolds G
        (Ciphertext.ofClasses (s • G.base) m' r) = true ↔
      G.exponent c = 0 ∨ G.exponent r' = r := by
  have := Fact.mk hq
  have ha : ((ofNonce G (G.element (s • G.base)) u).respond G u r' c).a =
      G.element (G.exponent u • G.base) := by
    rw [ofNonce_element]
    rfl
  rw [Transcript.alphaHolds_iff_exponents hq ha]
  simp only [respond, exponent_addMul]
  rw [add_right_inj, mul_eq_mul_left_iff, or_comm]

theorem respond_betaHolds_iff (hq : G.q.toNat.Prime) :
    ((ofNonce G (G.element (s • G.base)) u).respond G u r' c).betaHolds G
        (Ciphertext.ofClasses (s • G.base) m' r) (G.element (s • G.base)) m = true ↔
      G.exponent c = 0 ∨ m + G.exponent r' * s = m' + r * s := by
  have := Fact.mk hq
  have hb : ((ofNonce G (G.element (s • G.base)) u).respond G u r' c).b =
      G.element ((G.exponent u * s) • G.base) := by
    rw [ofNonce_element, mul_smul]
    rfl
  rw [Transcript.betaHolds_iff_exponents hq hb]
  simp only [respond, exponent_addMul]
  rw [← or_comm, ← mul_eq_mul_left_iff]
  constructor
  · intro h
    linear_combination h
  · intro h
    linear_combination h

/-- **An honest run for a false claim passes only if its challenge is zero.** -/
theorem respond_passes_iff (hq : G.q.toNat.Prime) (hc : c.toNat < G.q.toNat) :
    ((ofNonce G (G.element (s • G.base)) u).respond G u r' c).Passes G
        (Ciphertext.ofClasses (s • G.base) m' r) (G.element (s • G.base)) m ↔
      G.exponent c = 0 ∨ G.exponent r' = r ∧ m' = m := by
  have hbounds := respond_passes (s • G.base) m u r' hc
  constructor
  · intro h
    rcases (respond_alphaHolds_iff hq).1 h.alpha with hzero | hr
    · exact .inl hzero
    · refine ((respond_betaHolds_iff hq).1 h.beta).imp_right fun hm => ⟨hr, ?_⟩
      rw [hr] at hm
      exact (add_right_cancel hm).symm
  · intro h
    refine ⟨hbounds.a_member, hbounds.b_member, hbounds.c_reduced, hbounds.v_reduced,
      (respond_alphaHolds_iff hq).2 (h.imp_right And.left), (respond_betaHolds_iff hq).2 ?_⟩
    refine h.imp_right fun ⟨hr, hm⟩ => ?_
    rw [hr, hm]

end Exponents

end Commitment

/-! ### Zero-or-one proofs -/

/-- The checks that compare powers. -/
def DisjunctiveCheck.equations : List DisjunctiveCheck :=
  [.alphaZero, .alphaOne, .betaZero, .betaOne]

/-- The equation of the plaintext in the transcript of a selection. -/
def DisjunctiveCheck.betaOf (selected : Bool) : DisjunctiveCheck :=
  if selected then .betaOne else .betaZero

namespace DisjunctiveProof

/-- The transcript of a selection. -/
def branch (proof : DisjunctiveProof) (selected : Bool) : Transcript :=
  if selected then proof.one else proof.zero

variable {proof : DisjunctiveProof} {c : Scalar} {selected : Bool}

theorem holds_iff_branch (selected : Bool) :
    (∀ i, proof.holds G c x key i = true) ↔
      c = G.add proof.zero.c proof.one.c ∧
        (G.isMember x.alpha = true ∧ G.isMember x.beta = true) ∧
          (proof.branch selected).Passes G x key selected.toNat ∧
            (proof.branch !selected).Passes G x key (!selected).toNat := by
  rw [holds_iff]
  cases selected with
  | false => exact .rfl
  | true => exact and_congr_right fun _ => and_congr_right fun _ => and_comm

/-- If the values of both transcripts are in bounds, as they are wherever they pass, only the
equations can fail. -/
theorem holds_of_notMem_equations {x₀ x₁ : Ciphertext} {m₀ m₁ : Nat}
    (hc : c = G.add proof.zero.c proof.one.c)
    (hx : G.isMember x.alpha = true ∧ G.isMember x.beta = true)
    (h0 : proof.zero.Passes G x₀ key m₀) (h1 : proof.one.Passes G x₁ key m₁)
    {i : DisjunctiveCheck} (hi : i ∉ DisjunctiveCheck.equations) :
    proof.holds G c x key i = true := by
  cases i with
  | alphaBounds => exact hx.1
  | betaBounds => exact hx.2
  | a0Bounds => exact h0.a_member
  | b0Bounds => exact h0.b_member
  | a1Bounds => exact h1.a_member
  | b1Bounds => exact h1.b_member
  | c0Bounds => exact h0.c_reduced
  | c1Bounds => exact h1.c_reduced
  | v0Bounds => exact h0.v_reduced
  | v1Bounds => exact h1.v_reduced
  | challenge => exact decide_eq_true hc
  | alphaZero => exact absurd (by decide) hi
  | alphaOne => exact absurd (by decide) hi
  | betaZero => exact absurd (by decide) hi
  | betaOne => exact absurd (by decide) hi

theorem holds_iff_ne_betaOf (hc : c = G.add proof.zero.c proof.one.c)
    (hx : G.isMember x.alpha = true ∧ G.isMember x.beta = true) {x₀ : Ciphertext} {m₀ : Nat}
    (hown : (proof.branch selected).Passes G x₀ key m₀)
    (hother : (proof.branch !selected).Passes G x key (!selected).toNat)
    (hα : (proof.branch selected).alphaHolds G x = true)
    (hβ : (proof.branch selected).betaHolds G x key selected.toNat ≠ true)
    (i : DisjunctiveCheck) : proof.holds G c x key i = true ↔ i ≠ .betaOf selected := by
  by_cases hi : i ∈ DisjunctiveCheck.equations
  · cases selected with
    | false =>
      fin_cases hi
      · exact iff_of_true hα (by decide)
      · exact iff_of_true hother.alpha (by decide)
      · exact iff_of_false hβ (by decide)
      · exact iff_of_true hother.beta (by decide)
    | true =>
      fin_cases hi
      · exact iff_of_true hother.alpha (by decide)
      · exact iff_of_true hα (by decide)
      · exact iff_of_true hother.beta (by decide)
      · exact iff_of_false hβ (by decide)
  · have hne : i ≠ .betaOf selected := by
      rintro rfl
      cases selected <;> exact hi (by decide)
    refine iff_of_true ?_ hne
    cases selected with
    | false => exact holds_of_notMem_equations hc hx hown hother hi
    | true => exact holds_of_notMem_equations hc hx hother hown hi

/-! ### What is built for a claim -/

section Build

variable {s m' r : ZMod G.q.toNat} {challenge : List ChallengeItem → Scalar}
  {r' u otherChallenge otherResponse : Scalar}
  (hchallenge : ∀ items, (challenge items).toNat < G.q.toNat)

include hchallenge

/-- The parts of a proof that is built for any words: the challenges add up, one transcript is
simulated, and the other one is an honest run for the claim. -/
theorem build_branches
    (hproof : proof = build G challenge x r' key selected otherChallenge otherResponse u) :
    challenge (challengeItems x proof.zero.toCommitment proof.one.toCommitment) =
        G.add proof.zero.c proof.one.c ∧
      proof.branch (!selected) =
        Transcript.simulate G x key (!selected).toNat otherChallenge otherResponse ∧
      proof.branch selected =
        (Commitment.ofNonce G key u).respond G u r' (proof.branch selected).c ∧
      (proof.branch selected).c.toNat < G.q.toNat := by
  subst hproof
  cases selected with
  | false => exact ⟨(add_sub_of_lt (hchallenge _)).1.symm, rfl, rfl, sub_lt ..⟩
  | true => exact ⟨(add_sub_of_lt (hchallenge _)).2.symm, rfl, rfl, sub_lt ..⟩

variable (hc : otherChallenge.toNat < G.q.toNat) (hv : otherResponse.toNat < G.q.toNat)

include hc hv

theorem build_parts {α β : G.Members} (hα : x.alpha = G.element α) (hβ : x.beta = G.element β)
    (κ : G.Members)
    (hproof : proof =
      build G challenge x r' (G.element κ) selected otherChallenge otherResponse u) :
    challenge (challengeItems x proof.zero.toCommitment proof.one.toCommitment) =
        G.add proof.zero.c proof.one.c ∧
      (proof.branch !selected).Passes G x (G.element κ) (!selected).toNat ∧
      proof.branch selected = (Commitment.ofNonce G (G.element κ) u).respond G u r'
        (proof.branch selected).c ∧
      (proof.branch selected).c.toNat < G.q.toNat := by
  obtain ⟨hsum, hother, hown, hlt⟩ := build_branches hchallenge hproof
  refine ⟨hsum, ?_, hown, hlt⟩
  rw [hother]
  exact Transcript.simulate_passes hα hβ κ (!selected).toNat hc hv

variable (hq : G.q.toNat.Prime) (hx : x = Ciphertext.ofClasses (s • G.base) m' r)
  (hproof : proof =
    build G challenge x r' (G.element (s • G.base)) selected otherChallenge otherResponse u)

include hq hx hproof

/-- **What is built for a claim passes all checks exactly if the claim is true or its challenge is
zero.** -/
theorem build_holds_iff :
    (∀ i, proof.holds G
        (challenge (challengeItems x proof.zero.toCommitment proof.one.toCommitment)) x
        (G.element (s • G.base)) i = true) ↔
      G.exponent (proof.branch selected).c = 0 ∨ G.exponent r' = r ∧ m' = selected.toNat := by
  subst hx
  obtain ⟨hsum, hother, hown, hlt⟩ :=
    build_parts hchallenge hc hv rfl rfl (s • G.base) hproof
  rw [holds_iff_branch selected, hown, Commitment.respond_passes_iff hq hlt]
  exact ⟨fun h => h.2.2.1,
    fun h => ⟨hsum, ⟨isMember_element _, isMember_element _⟩, h, hother⟩⟩

/-- **A wrong selection with the right nonce fails one check**, unless its challenge is zero. -/
theorem build_holds_iff_ne (hr : G.exponent r' = r) (hm : m' ≠ selected.toNat)
    (hne : G.exponent (proof.branch selected).c ≠ 0) (i : DisjunctiveCheck) :
    proof.holds G (challenge (challengeItems x proof.zero.toCommitment proof.one.toCommitment)) x
      (G.element (s • G.base)) i = true ↔ i ≠ .betaOf selected := by
  subst hx
  obtain ⟨hsum, hother, hown, hlt⟩ :=
    build_parts hchallenge hc hv rfl rfl (s • G.base) hproof
  -- the bounds do not depend on what is claimed, so they are those of a run that passes
  have hbounds := Commitment.respond_passes (s • G.base) 0 u r' hlt
  rw [← hown] at hbounds
  refine holds_iff_ne_betaOf hsum ⟨isMember_element _, isMember_element _⟩ hbounds hother ?_ ?_ i
  · rw [hown, Commitment.respond_alphaHolds_iff hq]
    exact .inr hr
  · rw [hown, ne_eq, Commitment.respond_betaHolds_iff hq, hr]
    rintro (hzero | hm')
    · exact hne hzero
    · exact hm (add_right_cancel hm').symm

end Build

theorem proveSelection_branches (H : HashFunction) (G : SchnorrGroup) (x : Ciphertext)
    (r' : Scalar) (key : Element) (seed : Scalar) (selected : Bool) :
    let nonces := NonceStream.ofSeed G seed label
    let u := nonces.get H G 2
    let proof := proveSelection H G x r' key seed selected
    proof.derivedChallenge H G x = G.add proof.zero.c proof.one.c ∧
      proof.branch (!selected) = Transcript.simulate G x key (!selected).toNat
        (nonces.get H G 0) (nonces.get H G 1) ∧
      proof.branch selected =
        (Commitment.ofNonce G key u).respond G u r' (proof.branch selected).c ∧
      (proof.branch selected).c.toNat < G.q.toNat :=
  build_branches (fun _ => challenge_lt) rfl

theorem checks_proveSelection {H : HashFunction} (hq : G.q.toNat.Prime) {s m' r : ZMod G.q.toNat}
    (hx : x = Ciphertext.ofClasses (s • G.base) m' r) (r' seed : Scalar) (selected : Bool) :
    let proof := proveSelection H G x r' (G.element (s • G.base)) seed selected
    let c := (proof.branch selected).c
    ((proof.checks H G x (G.element (s • G.base))).isValid = true ↔
      c.toNat = 0 ∨ G.exponent r' = r ∧ m' = selected.toNat) ∧
    (G.exponent r' = r → m' ≠ selected.toNat → c.toNat ≠ 0 →
      (proof.checks H G x (G.element (s • G.base))).failed =
        [(DisjunctiveCheck.betaOf selected).name]) := by
  intro proof c
  have hchallenge : ∀ items, (G.challenge H items).toNat < G.q.toNat := fun _ => challenge_lt
  have hnonce : ∀ i, (NonceStream.get H G (.ofSeed G seed label) i).toNat < G.q.toNat :=
    fun i => NonceStream.get_lt _ i
  obtain ⟨-, -, -, hlt⟩ := proveSelection_branches H G x r' (G.element (s • G.base)) seed selected
  have hzero : c.toNat = 0 ↔ G.exponent c = 0 := (exponent_eq_zero_iff hlt).symm
  constructor
  · rw [hzero, checks_isValid_iff]
    exact build_holds_iff hchallenge (hnonce 0) (hnonce 1) hq hx rfl
  · intro hr hm hc
    refine failed_checks_eq_singleton ?_
    exact build_holds_iff_ne hchallenge (hnonce 0) (hnonce 1) hq hx rfl hr hm (hzero.not.1 hc)

/-- **The verdict on every claim.**  For a ciphertext of `m'` with the nonce `r` and any claim of a
selection and a nonce, the proof is accepted if and only if the challenge of the claimed selection
is zero or the claim is true modulo the order.  For the right nonce and the wrong selection, unless
that challenge is zero, the equation of the plaintext fails for the claimed selection and nothing
else does. -/
theorem checks_prove (H : HashFunction) (G : SchnorrGroup) (hq : G.q.toNat.Prime)
    {secret : Scalar} {keys : KeyPair} (hkeys : KeyPair.ofSecret G secret = .ok keys)
    (r m' : Nat) (r' seed : Scalar) {m : Nat} (hm : m ≤ 1) :
    let key := keys.publicKey
    let x : Ciphertext :=
      ⟨G.toElement (G.g.toNat ^ r), G.toElement (G.g.toNat ^ m' * key.toNat ^ r)⟩
    ∃ proof, prove H G x r' key seed m = .ok proof ∧
      let c := if m = 0 then proof.zero.c else proof.one.c
      ((proof.checks H G x key).isValid = true ↔
        c.toNat = 0 ∨ r'.toNat ≡ r [MOD G.q.toNat] ∧ m' ≡ m [MOD G.q.toNat]) ∧
      (r'.toNat ≡ r [MOD G.q.toNat] → ¬ m' ≡ m [MOD G.q.toNat] → c.toNat ≠ 0 →
        (proof.checks H G x key).failed =
          [if m = 0 then "consistent_kv0" else "consistent_gc1kv1"]) := by
  intro key x
  have hkey : key = G.element (G.exponent secret • G.base) := KeyPair.publicKey_eq hkeys
  have hx : x = Ciphertext.ofClasses (G.exponent secret • G.base) m' r := by
    rw [← Ciphertext.eq_ofClasses, ← hkey]
  have hr : r'.toNat ≡ r [MOD G.q.toNat] ↔ G.exponent r' = r :=
    (ZMod.natCast_eq_natCast_iff _ _ _).symm
  rw [hkey, hr, ← ZMod.natCast_eq_natCast_iff]
  interval_cases m
  · exact ⟨_, rfl, checks_proveSelection hq hx r' seed false⟩
  · exact ⟨_, rfl, checks_proveSelection hq hx r' seed true⟩

/-- A ciphertext of twelve, which is one modulo eleven, with the claim that it hides zero.  The
nonce is claimed by another representative, and the hash function tells challenges from nonces. -/
theorem checks_prove_small :
    let H : HashFunction := fun bytes => (Vector.replicate 31 0).push (bytes.getD 16 0)
    let key := smallKeys.publicKey
    let x : Ciphertext :=
      ⟨small.toElement (small.g.toNat ^ 5), small.toElement (small.g.toNat ^ 12 * key.toNat ^ 5)⟩
    ∃ proof, prove H small x 16 key 7 0 = .ok proof ∧
      (proof.checks H small x key).isValid ≠ true ∧
        (proof.checks H small x key).failed = ["consistent_kv0"] := by
  intro H key x
  obtain ⟨proof, hproof, hvalid, hfailed⟩ := checks_prove H small small_q_prime ofSecret_small 5 12
    16 7 (Nat.zero_le 1)
  have hsixteen : (16 : Scalar).toNat = 16 :=
    Word.toNat_ofNat_of_lt (Word.lt_limit_of_lt (by decide))
  have hr : (16 : Scalar).toNat ≡ 5 [MOD small.q.toNat] := by
    rw [hsixteen]
    decide
  have hc : proof.zero.c.toNat ≠ 0 := by
    obtain rfl := Except.ok.inj hproof
    change (small.sub (small.challenge H _) (NonceStream.get H small _ 0)).toNat ≠ 0
    rw [challenge_eq_toScalar, NonceStream.get_eq_toScalar]
    decide +kernel
  refine ⟨proof, hproof, fun h => ?_, hfailed hr (by decide) hc⟩
  rcases hvalid.1 h with hzero | ⟨-, hm⟩
  · exact hc hzero
  · exact absurd hm (by decide)

end DisjunctiveProof

/-! ### Proofs of a known plaintext -/

namespace ConstantProof

variable {proof : ConstantProof} {constant : Int64}

/-- The outcome of each check of a proof with the challenge `c` that is built for a ciphertext of
`m'` from the right nonce. -/
def claimOutcome (G : SchnorrGroup) (m' : Nat) (constant : Int64) (c : Scalar) :
    ConstantCheck → Bool
  | .constantBounds => 0 ≤ constant.toInt ∧ constant.toInt < G.q.toNat
  | .saneConstant => 0 ≤ constant.toInt ∧ constant.toInt < 1000000000
  | .betaEquation =>
    (0 ≤ constant.toInt ∧ constant.toInt < G.q.toNat) ∧
      (c.toNat = 0 ∨ constant.toInt ≡ m' [ZMOD G.q.toNat])
  | _ => true

section Build

variable {challenge : List ChallengeItem → Scalar} {s : ZMod G.q.toNat} {r' u : Scalar} {m' : Nat}
  (hchallenge : ∀ items, (challenge items).toNat < G.q.toNat)
  (hkey : key = G.element (s • G.base))
  (hx : x = Ciphertext.ofClasses (s • G.base) m' (G.exponent r'))
  (hproof : proof = build G challenge x constant r' key u)

include hchallenge hkey hproof

theorem build_parts :
    proof.constant = constant ∧ challenge (challengeItems x proof.toCommitment) = proof.c ∧
      proof.toTranscript =
        (Commitment.ofNonce G (G.element (s • G.base)) u).respond G u r' proof.c ∧
      proof.c.toNat < G.q.toNat := by
  subst hkey hproof
  exact ⟨rfl, rfl, rfl, hchallenge _⟩

include hx

theorem build_passes : proof.Passes G x key m' := by
  obtain ⟨-, -, hrun, hlt⟩ := build_parts hchallenge hkey hproof
  have h := Commitment.respond_passes (s • G.base) m' u r' hlt
  rwa [← hrun, ← hx, ← hkey] at h

theorem build_betaHolds_iff (hq : G.q.toNat.Prime) (h0 : 0 ≤ constant.toInt) :
    proof.betaHolds G x key constant.toInt.toNat = true ↔
      proof.c.toNat = 0 ∨ constant.toInt ≡ m' [ZMOD G.q.toNat] := by
  obtain ⟨-, -, hrun, hlt⟩ := build_parts hchallenge hkey hproof
  have hclaim : (constant.toInt.toNat : ZMod G.q.toNat) = m' ↔
      constant.toInt ≡ m' [ZMOD G.q.toNat] := by
    rw [cast_toNat_of_nonneg h0, ← ZMod.intCast_eq_intCast_iff, Int.cast_natCast]
  have hequation : proof.betaHolds G x key constant.toInt.toNat = true ↔
      G.exponent proof.c = 0 ∨ (constant.toInt.toNat : ZMod G.q.toNat) = m' := by
    rw [hx, hkey, hrun, Commitment.respond_betaHolds_iff hq, add_left_inj]
    exact .rfl
  rw [hequation, hclaim, exponent_eq_zero_iff hlt]

/-- **Every check of what is built from the right nonce**, for true and false claims, in range or
not. -/
theorem build_holds_eq (hq : G.q.toNat.Prime) (i : ConstantCheck) :
    proof.holds G (challenge (challengeItems x proof.toCommitment)) x key i =
      claimOutcome G m' constant proof.c i := by
  obtain ⟨hα, hβ⟩ : G.isMember x.alpha = true ∧ G.isMember x.beta = true :=
    Ciphertext.isMember_of_element (congrArg Ciphertext.alpha hx) (congrArg Ciphertext.beta hx)
  obtain ⟨hconstant, hderived, -, -⟩ := build_parts hchallenge hkey hproof
  have hpasses := build_passes hchallenge hkey hx hproof
  rw [hderived, Bool.eq_iff_iff]
  cases i with
  | alphaBounds => exact iff_of_true hα rfl
  | betaBounds => exact iff_of_true hβ rfl
  | aBounds => exact iff_of_true hpasses.a_member rfl
  | bBounds => exact iff_of_true hpasses.b_member rfl
  | cBounds => exact iff_of_true hpasses.c_reduced rfl
  | vBounds => exact iff_of_true hpasses.v_reduced rfl
  | constantBounds =>
    rw [holds, isSome_scalarOfInt?_iff, hconstant]
    exact decide_eq_true_iff.symm
  | saneConstant => simp [holds, claimOutcome, maxConstant, hconstant]
  | challenge => exact iff_of_true (decide_eq_true rfl) rfl
  | alphaEquation =>
    refine iff_of_true ?_ rfl
    simp only [holds, hpasses.v_reduced, hpasses.a_member, hα, hpasses.c_reduced, Bool.true_and]
    exact hpasses.alpha
  | betaEquation =>
    simp only [holds, claimOutcome, Bool.and_eq_true, decide_eq_true_eq, isSome_scalarOfInt?_iff,
      hconstant]
    -- the plaintext of the claim only counts where it is a scalar
    refine and_congr_right fun hbounds => ?_
    obtain ⟨h0, hlt⟩ := hbounds
    rw [plaintext_eq (hconstant ▸ h0) (hconstant ▸ hlt), hconstant]
    exact build_betaHolds_iff hchallenge hkey hx hproof hq h0

end Build

theorem failed_claimOutcome {m' : Nat} {c : Scalar} (hrange : InRange G constant)
    (hclaim : ¬ constant.toInt ≡ m' [ZMOD G.q.toNat]) (hc : c.toNat ≠ 0) :
    Checks.failed (ConstantCheck.all.map fun i => (i.name, claimOutcome G m' constant c i)) =
      ["consistent_kv"] := by
  obtain ⟨h0, hlt⟩ := hrange
  obtain ⟨hq, hsane⟩ := lt_min_iff.1 hlt
  have houtcome : claimOutcome G m' constant c = fun i => decide (i ≠ .betaEquation) := by
    funext i
    cases i with
    | constantBounds => exact decide_eq_true ⟨h0, hq⟩
    | saneConstant => exact decide_eq_true ⟨h0, hsane⟩
    | betaEquation => exact decide_eq_false fun h => h.2.elim hc hclaim
    | _ => rfl
  rw [houtcome]
  rfl

/-- **The verdict on every claim of a plaintext.**  For a ciphertext of `m'`, the right nonce by any
representative and any claim, the checks of the built proof are these: the range of the claim is
looked at twice, the equation of the plaintext holds for a scalar if the challenge is zero or the
claim is true modulo the order, and everything else holds.  So a wrong claim in range fails by this
equation alone, and a claim out of range cannot be proven for any ciphertext by any proof. -/
theorem checks_prove_constant (H : HashFunction) (G : SchnorrGroup) (hq : G.q.toNat.Prime)
    {secret : Scalar} {keys : KeyPair} (hkeys : KeyPair.ofSecret G secret = .ok keys)
    (r m' : Nat) {r' : Scalar} (hr : r'.toNat ≡ r [MOD G.q.toNat]) (seed : Scalar)
    (constant : Int64) :
    let key := keys.publicKey
    let x : Ciphertext :=
      ⟨G.toElement (G.g.toNat ^ r), G.toElement (G.g.toNat ^ m' * key.toNat ^ r)⟩
    let proof := prove H G x constant r' key seed
    proof.checks H G x key =
        [("in_bounds_alpha", true), ("in_bounds_beta", true), ("in_bounds_a", true),
          ("in_bounds_b", true), ("in_bounds_c", true), ("in_bounds_v", true),
          ("in_bounds_constant", decide (0 ≤ constant.toInt ∧ constant.toInt < G.q.toNat)),
          ("sane_constant", decide (0 ≤ constant.toInt ∧ constant.toInt < 1000000000)),
          ("consistent_c", true), ("consistent_gv", true),
          ("consistent_kv", decide ((0 ≤ constant.toInt ∧ constant.toInt < G.q.toNat) ∧
            (proof.c.toNat = 0 ∨ constant.toInt ≡ m' [ZMOD G.q.toNat])))] ∧
      (0 ≤ constant.toInt → constant.toInt < min (G.q.toNat : Int) 1000000000 →
        ¬ constant.toInt ≡ m' [ZMOD G.q.toNat] → proof.c.toNat ≠ 0 →
          (proof.checks H G x key).failed = ["consistent_kv"]) ∧
      (¬ (0 ≤ constant.toInt ∧ constant.toInt < min (G.q.toNat : Int) 1000000000) →
        ∀ x key (t : Transcript), (checks H G x key ⟨t, constant⟩).isValid = false) := by
  intro key x proof
  have hkey : key = G.element (G.exponent secret • G.base) := KeyPair.publicKey_eq hkeys
  have hr' : G.exponent r' = r := (ZMod.natCast_eq_natCast_iff _ _ _).2 hr
  have hx : x = Ciphertext.ofClasses (G.exponent secret • G.base) m' (G.exponent r') := by
    rw [hr', ← Ciphertext.eq_ofClasses, ← hkey]
  have hproof : proof = build G (G.challenge H) x constant r' key
      (NonceStream.get H G (.ofSeed G seed label) 0) := rfl
  have houtcome : proof.checks H G x key =
      ConstantCheck.all.map fun i => (i.name, claimOutcome G m' constant proof.c i) := by
    rw [checks]
    refine List.map_congr_left fun i _ => ?_
    rw [← build_holds_eq (fun _ => challenge_lt) hkey hx hproof hq i]
    rfl
  refine ⟨houtcome, fun h0 hrange hclaim hc => ?_, fun hrange x' key' t => ?_⟩
  · rw [houtcome]
    exact failed_claimOutcome ⟨h0, hrange⟩ hclaim hc
  · rw [Bool.eq_false_iff, ne_eq, checks_isValid_iff, holds_iff]
    exact fun h => hrange h.2.2.1

/-- A ciphertext of twelve, which is one modulo eleven.  With the nonce by another representative,
the claim that it hides two fails by the equation of the plaintext, and the claim that it hides
minus ten, which is one as well, is out of range. -/
theorem checks_prove_constant_small :
    let H : HashFunction := fun bytes => (Vector.replicate 31 0).push (bytes.getD 16 0)
    let key := smallKeys.publicKey
    let x : Ciphertext :=
      ⟨small.toElement (small.g.toNat ^ 5), small.toElement (small.g.toNat ^ 12 * key.toNat ^ 5)⟩
    ((prove H small x 2 16 key 7).checks H small x key).failed = ["consistent_kv"] ∧
      ((prove H small x (-10) 16 key 7).checks H small x key).isValid = false := by
  intro H key x
  have hsixteen : (16 : Scalar).toNat = 16 :=
    Word.toNat_ofNat_of_lt (Word.lt_limit_of_lt (by decide))
  have hr : (16 : Scalar).toNat ≡ 5 [MOD small.q.toNat] := by
    rw [hsixteen]
    decide
  have hc : (prove H small x 2 16 key 7).c.toNat ≠ 0 := by
    change (small.challenge H _).toNat ≠ 0
    rw [challenge_eq_toScalar]
    decide
  obtain ⟨-, hfailed, -⟩ :=
    checks_prove_constant H small small_q_prime ofSecret_small 5 12 hr 7 2
  obtain ⟨-, -, hrefused⟩ :=
    checks_prove_constant H small small_q_prime ofSecret_small 5 12 hr 7 (-10)
  exact ⟨hfailed (by decide) (by decide) (by decide) hc, hrefused (by decide) x key _⟩

end ConstantProof

end BallotProof
