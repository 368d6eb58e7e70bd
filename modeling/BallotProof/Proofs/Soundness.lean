import BallotProof.Proofs.Completeness

/-!
# What an accepted proof shows

In a group of prime order, what the checks accept is decided by the exponents.

* `DisjunctiveProof.eq_ofClasses_of_two_answers` : two answers to different challenges with one
  choice of commitments show that the ciphertext hides zero or one.
* `DisjunctiveProof.hidesSelection_of_two_answers` : **special soundness of the zero-or-one proof.**
  Such a ciphertext can be decrypted, and a ciphertext that hides something else leaves at most one
  challenge that can be answered.
* `ConstantProof.isValid_iff_exponents` : **exact acceptance of the proof of a known plaintext**,
  for honest and dishonest commitments.
-/

namespace BallotProof

open SchnorrGroup

variable {H : HashFunction} {G : SchnorrGroup} {x : Ciphertext} {κ : G.Members}

/-! ### Ciphertexts of selections -/

/-- The ciphertext is one of zero or of one, for some nonce. -/
def Ciphertext.HidesSelection (G : SchnorrGroup) (x : Ciphertext) (key : Element) : Prop :=
  ∃ r : Scalar, r.toNat < G.q.toNat ∧ x.alpha = G.generatorPow r ∧
    (x.beta = G.pow key r ∨ x.beta = G.prod [G.generator, G.pow key r])

theorem Ciphertext.hidesSelection_ofClasses (κ : G.Members) (selected : Bool)
    (r : ZMod G.q.toNat) :
    (ofClasses κ selected.toNat r).HidesSelection G (G.element κ) := by
  have hr : G.exponent (G.toScalar r.val) = r := exponent_toScalar_val r
  refine ⟨G.toScalar r.val, toScalar_lt _, ?_, ?_⟩
  · rw [generatorPow_eq, hr]
    rfl
  · rw [generator_eq, pow_element, hr, prod_element_pair]
    cases selected with
    | false =>
      left
      rw [ofClasses, Bool.toNat_false, Nat.cast_zero, zero_smul, zero_add]
    | true =>
      right
      rw [ofClasses, Bool.toNat_true, Nat.cast_one, one_smul]

theorem Ciphertext.decrypt?_selection (hq : G.q.toNat.Prime) (s : Scalar) (selected : Bool)
    (r : ZMod G.q.toNat) {bound : Nat} (hbound : 2 ≤ bound) :
    (ofClasses (G.exponent s • G.base) selected.toNat r).decrypt? G s bound =
      some selected.toNat := by
  have hval : ((selected.toNat : Nat) : ZMod G.q.toNat).val = selected.toNat := by
    rw [ZMod.val_natCast]
    exact Nat.mod_eq_of_lt (Nat.lt_of_le_of_lt (Bool.toNat_le selected) G.one_lt_q)
  have hlt : selected.toNat < bound := Nat.lt_of_le_of_lt (Bool.toNat_le selected) hbound
  rw [decrypt?_ofClasses hq, hval, if_pos hlt]

/-! ### Zero-or-one proofs -/

namespace DisjunctiveProof

/-- All checks pass but perhaps the one that compares the challenges with the derived one. -/
def Answers (H : HashFunction) (G : SchnorrGroup) (x : Ciphertext) (key : Element)
    (proof : DisjunctiveProof) : Prop :=
  ∀ i, i ≠ .challenge → proof.holds G (proof.derivedChallenge H G x) x key i = true

/-- The challenges that can be answered once the commitments are chosen. -/
def answerable (H : HashFunction) (G : SchnorrGroup) (x : Ciphertext) (key : Element)
    (zero one : Commitment) : Set Scalar :=
  {c | ∃ proof : DisjunctiveProof, proof.zero.toCommitment = zero ∧
    proof.one.toCommitment = one ∧ proof.Answers H G x key ∧
    G.add proof.zero.c proof.one.c = c}

/-- Two answers to different challenges differ in the challenge of one of the plaintexts, and show
that the ciphertext hides this plaintext. -/
theorem eq_ofClasses_of_two_answers (hq : G.q.toNat.Prime) {proof proof' : DisjunctiveProof}
    (h : proof.Answers H G x (G.element κ)) (h' : proof'.Answers H G x (G.element κ))
    (hzero : proof.zero.toCommitment = proof'.zero.toCommitment)
    (hone : proof.one.toCommitment = proof'.one.toCommitment)
    (hne : G.add proof.zero.c proof.one.c ≠ G.add proof'.zero.c proof'.one.c) :
    ∃ selected : Bool, ∃ r, x = Ciphertext.ofClasses κ selected.toNat r := by
  obtain ⟨⟨hα, hβ⟩, h0, h1⟩ := holds_of_ne_challenge_iff.1 h
  obtain ⟨-, h0', h1'⟩ := holds_of_ne_challenge_iff.1 h'
  obtain ⟨α, hα⟩ := isMember_iff_exists.1 hα
  obtain ⟨β, hβ⟩ := isMember_iff_exists.1 hβ
  -- if the challenges for zero agree, those for one make the difference
  by_cases hc : proof.zero.c = proof'.zero.c
  · have hc1 : proof.one.c ≠ proof'.one.c := by
      intro hc1
      rw [hc, hc1] at hne
      exact hne rfl
    exact ⟨true, _, Transcript.eq_ofClasses_extract hq hα hβ h1 h1' hone hc1⟩
  · exact ⟨false, _, Transcript.eq_ofClasses_extract hq hα hβ h0 h0' hzero hc⟩

/-- **Special soundness of the zero-or-one proof.**  Two proofs that share their commitments, answer
different challenges and pass every check but perhaps the one of the challenge show that the
ciphertext is one of zero or one, and the secret key decrypts it as such.  If the ciphertext is
neither, each choice of the commitments can be answered for at most one challenge. -/
theorem hidesSelection_of_two_answers (H : HashFunction) (G : SchnorrGroup) (x : Ciphertext)
    {key : Element} (hq : G.q.toNat.Prime) (hkey : G.isMember key = true) :
    (∀ proof proof' : DisjunctiveProof, proof.zero.toCommitment = proof'.zero.toCommitment →
      proof.one.toCommitment = proof'.one.toCommitment →
      proof.Answers H G x key → proof'.Answers H G x key →
      G.add proof.zero.c proof.one.c ≠ G.add proof'.zero.c proof'.one.c →
        x.HidesSelection G key ∧
          ∀ s, key = G.generatorPow s → ∀ bound, 2 ≤ bound →
            x.decrypt? G s bound = some 0 ∨ x.decrypt? G s bound = some 1) ∧
      (¬ x.HidesSelection G key →
        ∀ zero one, (answerable H G x key zero one).Subsingleton) := by
  obtain ⟨κ, rfl⟩ := isMember_iff_exists.1 hkey
  constructor
  · intro proof proof' hzero hone h h' hne
    obtain ⟨selected, r, rfl⟩ := eq_ofClasses_of_two_answers hq h h' hzero hone hne
    refine ⟨Ciphertext.hidesSelection_ofClasses κ selected r, fun s hs bound hbound => ?_⟩
    rw [generatorPow_eq, element_inj] at hs
    rw [hs, Ciphertext.decrypt?_selection hq s selected r hbound]
    cases selected with
    | false => exact .inl rfl
    | true => exact .inr rfl
  · rintro hx zero one c ⟨proof, hzero, hone, h, rfl⟩ c' ⟨proof', hzero', hone', h', rfl⟩
    by_contra hne
    obtain ⟨selected, r, rfl⟩ := eq_ofClasses_of_two_answers hq h h' (hzero.trans hzero'.symm)
      (hone.trans hone'.symm) hne
    exact hx (Ciphertext.hidesSelection_ofClasses κ selected r)

theorem build_answers {challenge : List ChallengeItem → Scalar} (κ : G.Members) (r u : Scalar)
    (selected : Bool) {otherChallenge otherResponse : Scalar}
    (hchallenge : ∀ items, (challenge items).toNat < G.q.toNat)
    (hc : otherChallenge.toNat < G.q.toNat) (hv : otherResponse.toNat < G.q.toNat)
    (hx : x = Ciphertext.ofClasses κ selected.toNat (G.exponent r)) :
    (build G challenge x r (G.element κ) selected otherChallenge otherResponse u).Answers H G x
      (G.element κ) :=
  holds_of_ne_challenge_iff.2
    (holds_iff.1 (build_holds challenge κ r u selected hchallenge hc hv hx rfl)).2

variable (G) in
/-- The commitments of a proof for one do not depend on the challenge. -/
theorem build_toCommitment (challenge : List ChallengeItem → Scalar) (x : Ciphertext) (r : Scalar)
    (key : Element) (otherChallenge otherResponse u : Scalar) :
    (build G challenge x r key true otherChallenge otherResponse u).zero.toCommitment =
        (Transcript.simulate G x key 0 otherChallenge otherResponse).toCommitment ∧
      (build G challenge x r key true otherChallenge otherResponse u).one.toCommitment =
        Commitment.ofNonce G key u :=
  ⟨rfl, rfl⟩

/-- The challenges 2 and 3, answered for a ciphertext of one with the same commitments. -/
theorem hidesSelection_of_two_answers_small :
    let x := Ciphertext.ofClasses (small.exponent (small.toScalar 3) • small.base)
      (true.toNat : ZMod small.q.toNat) (small.exponent (small.toScalar 5))
    let answer := fun c => build small (fun _ => small.toScalar c) x (small.toScalar 5)
      smallKeys.publicKey true (small.toScalar 4) (small.toScalar 6) (small.toScalar 8)
    small.add (answer 2).zero.c (answer 2).one.c ≠ small.add (answer 3).zero.c (answer 3).one.c ∧
      x.HidesSelection small smallKeys.publicKey ∧
        (x.decrypt? small (small.toScalar 3) 2 = some 0 ∨
          x.decrypt? small (small.toScalar 3) 2 = some 1) := by
  intro x answer
  have hkey : smallKeys.publicKey =
      small.element (small.exponent (small.toScalar 3) • small.base) :=
    KeyPair.publicKey_eq ofSecret_small
  have hne : small.add (answer 2).zero.c (answer 2).one.c ≠
      small.add (answer 3).zero.c (answer 3).one.c := by
    decide +kernel
  have hanswers : ∀ c, (answer c).Answers Sha3.hash small x smallKeys.publicKey := by
    intro c
    simp only [answer, hkey]
    exact build_answers _ _ _ true (fun _ => toScalar_lt c) (toScalar_lt 4) (toScalar_lt 6) rfl
  have hmember : small.isMember smallKeys.publicKey = true := by
    rw [hkey]
    exact isMember_element _
  have hcommitments := fun c => build_toCommitment small (fun _ => small.toScalar c) x
    (small.toScalar 5) smallKeys.publicKey (small.toScalar 4) (small.toScalar 6) (small.toScalar 8)
  obtain ⟨hx, hdecrypt⟩ := (hidesSelection_of_two_answers Sha3.hash small x small_q_prime
    hmember).1 (answer 2) (answer 3) ((hcommitments 2).1.trans (hcommitments 3).1.symm)
    ((hcommitments 2).2.trans (hcommitments 3).2.symm) (hanswers 2) (hanswers 3) hne
  exact ⟨hne, hx, hdecrypt _ publicKey_small 2 (Nat.le_refl 2)⟩

end DisjunctiveProof

/-! ### Proofs of a known plaintext -/

namespace ConstantProof

section Exponents

variable {s r u w m' : ZMod G.q.toNat} {commitment : Commitment}

/-- **Exact acceptance over exponents.** -/
theorem isValid_iff_classes (hq : G.q.toNat.Prime) (ha : commitment.a = G.element (u • G.base))
    (hb : commitment.b = G.element (w • G.base)) {c c' v : Scalar} {m : Int64}
    (hx : x = Ciphertext.ofClasses (s • G.base) m' r)
    (hc : c = G.challenge H (challengeItems x commitment)) :
    (checks H G x (G.element (s • G.base)) ⟨⟨commitment, c', v⟩, m⟩).isValid = true ↔
      c' = c ∧ (v.toNat < G.q.toNat ∧ G.exponent v = u + G.exponent c * r) ∧ InRange G m ∧
        G.exponent c * (m.toInt - m') = w - s * u := by
  have hderived : derivedChallenge H G x ⟨⟨commitment, c', v⟩, m⟩ = c := hc.symm
  rw [checks_isValid_iff, hderived, holds_iff, hx, Transcript.passes_iff_exponents hq ha hb]
  constructor
  · rintro ⟨rfl, -, hrange, -, hv, heq⟩
    rw [cast_toNat_of_nonneg hrange.1] at heq
    exact ⟨rfl, hv, hrange, heq⟩
  · rintro ⟨rfl, hv, hrange, heq⟩
    refine ⟨rfl, ⟨isMember_element _, isMember_element _⟩, hrange, ?_, hv, ?_⟩
    · rw [hc]
      exact challenge_lt
    · rwa [cast_toNat_of_nonneg hrange.1]

theorem exists_passes_iff (hq : G.q.toNat.Prime) (ha : commitment.a = G.element (u • G.base))
    (hb : commitment.b = G.element (w • G.base)) (c : Scalar) (n : Nat) :
    (∃ v, Transcript.Passes G (Ciphertext.ofClasses (s • G.base) m' r) (G.element (s • G.base)) n
        ⟨commitment, c, v⟩) ↔
      c.toNat < G.q.toNat ∧ G.exponent c * (n - m') = w - s * u := by
  constructor
  · rintro ⟨v, hv⟩
    obtain ⟨hc, -, heq⟩ := (Transcript.passes_iff_exponents hq ha hb).1 hv
    exact ⟨hc, heq⟩
  · rintro ⟨hc, heq⟩
    refine ⟨G.toScalar (u + G.exponent c * r).val, ?_⟩
    exact (Transcript.passes_iff_exponents hq ha hb).2
      ⟨hc, ⟨toScalar_lt _, exponent_toScalar_val _⟩, heq⟩

theorem mul_sub_eq_iff_class (hq : G.q.toNat.Prime) {c n : ZMod G.q.toNat} (hc : c ≠ 0) :
    c * (n - m') = w - s * u ↔ n = m' + (w - s * u) * c⁻¹ := by
  have := Fact.mk hq
  rw [← sub_eq_iff_eq_add', eq_mul_inv_iff_mul_eq₀ hc, mul_comm]

theorem class_eq_iff_honest (hq : G.q.toNat.Prime) {c : ZMod G.q.toNat} (hc : c ≠ 0) :
    m' + (w - s * u) * c⁻¹ = m' ↔ G.element (w • G.base) = G.element (u • s • G.base) := by
  have := Fact.mk hq
  rw [add_eq_left, mul_eq_zero_iff_right (inv_ne_zero hc), sub_eq_zero, element_inj, smul_smul,
    smul_base_inj hq, mul_comm]

theorem existsUnique_challenge (hq : G.q.toNat.Prime)
    (ha : commitment.a = G.element (u • G.base)) (hb : commitment.b = G.element (w • G.base))
    {n : Nat} (hn : (n : ZMod G.q.toNat) ≠ m') :
    ∃! c, ∃ v, Transcript.Passes G (Ciphertext.ofClasses (s • G.base) m' r)
      (G.element (s • G.base)) n ⟨commitment, c, v⟩ := by
  have := Fact.mk hq
  have hsub : (n : ZMod G.q.toNat) - m' ≠ 0 := sub_ne_zero.2 hn
  refine ⟨G.toScalar ((w - s * u) * (n - m')⁻¹).val, ?_, fun c hc => ?_⟩
  · refine (exists_passes_iff hq ha hb _ n).2 ⟨toScalar_lt _, ?_⟩
    rw [exponent_toScalar_val, inv_mul_cancel_right₀ hsub]
  · obtain ⟨hlt, heq⟩ := (exists_passes_iff hq ha hb c n).1 hc
    refine scalar_ext hlt (toScalar_lt _) ?_
    rw [exponent_toScalar_val, eq_mul_inv_iff_mul_eq₀ hsub, heq]

theorem existsUnique_class (hq : G.q.toNat.Prime) (ha : commitment.a = G.element (u • G.base))
    (hb : commitment.b = G.element (w • G.base)) {c : Scalar}
    (hx : x = Ciphertext.ofClasses (s • G.base) m' r)
    (hc : c = G.challenge H (challengeItems x commitment)) (hc0 : c.toNat ≠ 0) :
    ∃! ρ : ZMod G.q.toNat,
      (∀ n : Nat, (∃ v, Transcript.Passes G x (G.element (s • G.base)) n ⟨commitment, c, v⟩) ↔
        (n : ZMod G.q.toNat) = ρ) ∧
      (∀ m : Int64,
        (∃ c' v, (checks H G x (G.element (s • G.base)) ⟨⟨commitment, c', v⟩, m⟩).isValid = true) ↔
          InRange G m ∧ (m.toInt : ZMod G.q.toNat) = ρ) ∧
      (ρ = m' ↔ G.element (w • G.base) = G.element (u • s • G.base)) := by
  have hlt : c.toNat < G.q.toNat := by
    rw [hc]
    exact challenge_lt
  have hcne : G.exponent c ≠ 0 := exponent_ne_zero hlt hc0
  have hpasses : ∀ n : Nat,
      (∃ v, Transcript.Passes G x (G.element (s • G.base)) n ⟨commitment, c, v⟩) ↔
        (n : ZMod G.q.toNat) = m' + (w - s * u) * (G.exponent c)⁻¹ := by
    intro n
    rw [hx, exists_passes_iff hq ha hb, mul_sub_eq_iff_class hq hcne]
    exact and_iff_right hlt
  refine ⟨_, ⟨hpasses, fun m => ⟨?_, ?_⟩, class_eq_iff_honest hq hcne⟩, fun ρ hρ => ?_⟩
  · rintro ⟨c', v, h⟩
    obtain ⟨-, -, hrange, heq⟩ := (isValid_iff_classes hq ha hb hx hc).1 h
    exact ⟨hrange, (mul_sub_eq_iff_class hq hcne).1 heq⟩
  · rintro ⟨hrange, heq⟩
    refine ⟨c, G.toScalar (u + G.exponent c * r).val,
      (isValid_iff_classes hq ha hb hx hc).2 ⟨rfl, ⟨toScalar_lt _, ?_⟩, hrange, ?_⟩⟩
    · exact exponent_toScalar_val _
    · exact (mul_sub_eq_iff_class hq hcne).2 heq
  · -- every class is the one of a natural number, so the claims in range need not reach it
    have h := (hpasses ρ.val).1 ((hρ.1 ρ.val).2 (ZMod.natCast_zmod_val ρ))
    rwa [ZMod.natCast_zmod_val] at h

end Exponents

/-- **Exact acceptance of the proof of a known plaintext.**  For a ciphertext of `m'` and any
commitment to powers of the generator, the accepted proofs are those with the derived challenge, the
one response to it and a plaintext in range whose distance from `m'`, times the challenge, is what
the commitment is off.  So a challenge that is not zero leaves one class of plaintexts, the true one
exactly for an honest commitment, and a wrong plaintext leaves one challenge. -/
theorem isValid_iff_exponents (H : HashFunction) (G : SchnorrGroup) (hq : G.q.toNat.Prime)
    (s r u w m' : Nat) :
    let key := G.toElement (G.g.toNat ^ s)
    let x : Ciphertext :=
      ⟨G.toElement (G.g.toNat ^ r), G.toElement (G.g.toNat ^ m' * key.toNat ^ r)⟩
    let a := G.toElement (G.g.toNat ^ u)
    let b := G.toElement (G.g.toNat ^ w)
    let c := G.challenge H [.element x.alpha, .element x.beta, .element a, .element b]
    (∀ (c' v : Scalar) (m : Int64),
      (checks H G x key ⟨⟨⟨a, b⟩, c', v⟩, m⟩).isValid = true ↔
        c' = c ∧ v.toNat = (u + c.toNat * r) % G.q.toNat ∧
          (0 ≤ m.toInt ∧ m.toInt < min (G.q.toNat : Int) 1000000000) ∧
            (c.toNat : Int) * (m.toInt - m') ≡ (w : Int) - s * u [ZMOD G.q.toNat]) ∧
      (c.toNat ≠ 0 → ∃! ρ : ZMod G.q.toNat,
        (∀ n : Nat, (∃ v, Transcript.Passes G x key n ⟨⟨a, b⟩, c, v⟩) ↔
          (n : ZMod G.q.toNat) = ρ) ∧
        (∀ m : Int64, (∃ c' v, (checks H G x key ⟨⟨⟨a, b⟩, c', v⟩, m⟩).isValid = true) ↔
          InRange G m ∧ (m.toInt : ZMod G.q.toNat) = ρ) ∧
        (ρ = m' ↔ b = G.toElement (key.toNat ^ u))) ∧
      ∀ n : Nat, ¬ n ≡ m' [MOD G.q.toNat] →
        ∃! c, ∃ v, Transcript.Passes G x key n ⟨⟨a, b⟩, c, v⟩ := by
  intro key x a b c
  have hkey : key = G.element ((s : ZMod G.q.toNat) • G.base) := toElement_g_pow s
  have hx : x = Ciphertext.ofClasses ((s : ZMod G.q.toNat) • G.base) m' r := by
    refine Ciphertext.ext (toElement_g_pow r) ?_
    change G.toElement (G.g.toNat ^ m' * key.toNat ^ r) = _
    rw [hkey, toElement_g_pow_mul_pow]
    rfl
  have ha : a = G.element ((u : ZMod G.q.toNat) • G.base) := toElement_g_pow u
  have hb : b = G.element ((w : ZMod G.q.toNat) • G.base) := toElement_g_pow w
  have hc : c = G.challenge H (challengeItems x ⟨a, b⟩) := rfl
  refine ⟨fun c' v m => ?_, fun hc0 => ?_, fun n hn => ?_⟩
  · have hv : v.toNat = (u + c.toNat * r) % G.q.toNat ↔
        v.toNat < G.q.toNat ∧ G.exponent v = u + G.exponent c * r := by
      rw [toNat_eq_mod_iff, Nat.cast_add, Nat.cast_mul]
      rfl
    have heq : (c.toNat : Int) * (m.toInt - m') ≡ (w : Int) - s * u [ZMOD G.q.toNat] ↔
        G.exponent c * (m.toInt - m') = w - s * u := by
      rw [← ZMod.intCast_eq_intCast_iff]
      push_cast
      rfl
    rw [hkey, isValid_iff_classes hq ha hb hx hc, hv, heq]
    rfl
  · have h := existsUnique_class hq ha hb hx hc hc0
    rwa [← hb, ← toElement_pow u ((s : ZMod G.q.toNat) • G.base), ← hkey] at h
  · rw [hkey, hx]
    refine existsUnique_challenge hq ha hb fun h => hn ?_
    exact (ZMod.natCast_eq_natCast_iff _ _ _).1 h

/-- In the group of order 11, a wrong claim of four for a ciphertext of one.  The challenge is
three, and the commitment is off by the three times three that the claim is off. -/
theorem isValid_iff_exponents_small :
    let H : HashFunction := fun _ => (Vector.replicate 31 0).push 3
    let key := small.toElement (small.g.toNat ^ 3)
    let x : Ciphertext :=
      ⟨small.toElement (small.g.toNat ^ 5), small.toElement (small.g.toNat ^ 1 * key.toNat ^ 5)⟩
    (checks H small x key
      ⟨⟨⟨small.toElement (small.g.toNat ^ 2), small.toElement (small.g.toNat ^ 4)⟩,
        small.toScalar 3, small.toScalar 6⟩, 4⟩).isValid = true := by
  intro H key x
  have hc : ∀ items, small.challenge H items = small.toScalar 3 := by
    intro items
    have hbytes : Bytes.toNat (H (Challenge.input items)).toBytes = 3 := by decide
    apply Scalar.ext
    rw [SchnorrGroup.challenge, toNat_scalarOfBytes, hbytes,
      Nat.mod_eq_of_lt (Word.lt_limit_of_lt (by decide)), toNat_toScalar]
  refine ((isValid_iff_exponents H small small_q_prime 3 5 2 4 1).1 _ _ 4).2 ?_
  rw [hc]
  decide

end ConstantProof

end BallotProof
