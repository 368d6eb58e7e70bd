import BallotProof.Json.Forms
import BallotProof.Proofs.Uniqueness
import BallotProof.Proofs.Verdicts
import BallotProof.Tamper

/-!
# Accepted proofs cannot be altered

In a group of prime order, a change that is confined to the scalars of an accepted proof, or to its
commitments, gives a proof that is refused.  This holds for every hash function.

* `Slot.Pinned` says that a field of a proof can only be left as it is.
* `SchnorrGroup.pow_q_eq_one_of_pow` : of a word outside the group, not both a smaller power than
  the `q`-th and the `q`-th one can be members.
* `DisjunctiveProof.challenge_eq_of_le` : **the commitments determine the split of the challenge**,
  also if the key is a word outside the group.
* `DisjunctiveProof.eq_of_isValid` : **zero-or-one proofs are not malleable**, whatever the key is.
* `ConstantProof.isValid_changes` : **proofs of a known plaintext are not malleable**, except for
  the plaintext when the challenge is zero.
-/

namespace BallotProof

open SchnorrGroup

variable {H : HashFunction} {G : SchnorrGroup} {x : Ciphertext} {key : Element}
  {α β : G.Members}

/-! ### Changes of one field -/

/-- A field whose value decides the verdict: of an element and of a scalar no other value is
accepted, and of a plaintext exactly the given ones. -/
def Slot.Pinned (valid : Proof → Prop) (plaintexts : Set Int64) : Slot → Prop
  | .element value put => ∀ y, valid (put y) ↔ y = value
  | .scalar value put => ∀ y, valid (put y) ↔ y = value
  | .constant put => ∀ m, valid (put m) ↔ m ∈ plaintexts

section Unique

variable {valid : Proof → Prop} {put : Transcript → Proof} {t : Transcript}

/-- If no other accepted transcript shares the commitment or both scalars, a field can only be left
as it is, as changing it touches the one or the other alone. -/
theorem Transcript.valid_set_iff {γ : Type} (h : valid (put t))
    (hunique : ∀ t', valid (put t') →
      t.toCommitment = t'.toCommitment ∨ t.c = t'.c ∧ t.v = t'.v → t = t')
    (get : Transcript → γ) (set : γ → Transcript) (hget : ∀ y, get (set y) = y)
    (hset : set (get t) = t)
    (hsame : ∀ y, t.toCommitment = (set y).toCommitment ∨ t.c = (set y).c ∧ t.v = (set y).v)
    (y : γ) : valid (put (set y)) ↔ y = get t := by
  constructor
  · intro hy
    rw [hunique _ hy (hsame y), hget]
  · rintro rfl
    rwa [hset]

theorem Transcript.pinned_of_slot? (h : valid (put t))
    (hunique : ∀ t', valid (put t') →
      t.toCommitment = t'.toCommitment ∨ t.c = t'.c ∧ t.v = t'.v → t = t')
    (plaintexts : Set Int64) {letter : Char} {slot : Slot}
    (hslot : t.slot? put letter = some slot) : slot.Pinned valid plaintexts := by
  unfold Transcript.slot? at hslot
  split at hslot
  · obtain rfl := Option.some.inj hslot
    exact valid_set_iff h hunique (fun t => t.a) (fun a => { t with a }) (fun _ => rfl) rfl
      fun _ => .inr ⟨rfl, rfl⟩
  · obtain rfl := Option.some.inj hslot
    exact valid_set_iff h hunique (fun t => t.b) (fun b => { t with b }) (fun _ => rfl) rfl
      fun _ => .inr ⟨rfl, rfl⟩
  · obtain rfl := Option.some.inj hslot
    exact valid_set_iff h hunique Transcript.c (fun c => { t with c }) (fun _ => rfl) rfl
      fun _ => .inl rfl
  · obtain rfl := Option.some.inj hslot
    exact valid_set_iff h hunique Transcript.v (fun v => { t with v }) (fun _ => rfl) rfl
      fun _ => .inl rfl
  · exact nomatch hslot

end Unique

/-! ### Keys outside the group -/

/-- Of a word outside the group, not both a smaller power than the `q`-th and the `q`-th one can be
members. -/
theorem SchnorrGroup.pow_q_eq_one_of_pow (hq : G.q.toNat.Prime) {k : ZMod G.p.toNat} {n : Nat}
    {a b : G.Members} (hpos : 0 < n) (hlt : n < G.q.toNat) (hn : k ^ n = a.value)
    (hkq : k ^ G.q.toNat = b.value) : k ^ G.q.toNat = 1 := by
  -- the order of the word divides both exponents, which share no more than one factor `q`
  have hn' : k ^ (G.q.toNat * n) = 1 := by
    rw [Nat.mul_comm, pow_mul, hn, value_pow_q]
  have hq' : k ^ (G.q.toNat * G.q.toNat) = 1 := by
    rw [pow_mul, hkq, value_pow_q]
  have hgcd : Nat.gcd (G.q.toNat * n) (G.q.toNat * G.q.toNat) = G.q.toNat := by
    rw [Nat.gcd_mul_left, (Nat.coprime_of_lt_prime hpos.ne' hlt hq).symm.gcd_eq_one, Nat.mul_one]
  have h := pow_gcd_eq_one.2 ⟨hn', hq'⟩
  rwa [hgcd] at h

/-! ### Zero-or-one proofs -/

namespace DisjunctiveProof

/-- The same commitments, for zero and for one. -/
def SameCommitments (proof proof' : DisjunctiveProof) : Prop :=
  proof.zero.toCommitment = proof'.zero.toCommitment ∧
    proof.one.toCommitment = proof'.one.toCommitment

/-- The same challenges and responses, for zero and for one. -/
def SameScalars (proof proof' : DisjunctiveProof) : Prop :=
  (proof.zero.c = proof'.zero.c ∧ proof.zero.v = proof'.zero.v) ∧
    proof.one.c = proof'.one.c ∧ proof.one.v = proof'.one.v

variable {proof proof' : DisjunctiveProof}

theorem SameCommitments.symm (h : SameCommitments proof proof') : SameCommitments proof' proof :=
  ⟨h.1.symm, h.2.symm⟩

/-- The sum of the responses, not reduced. -/
def responseSum (proof : DisjunctiveProof) : Nat :=
  proof.zero.v.toNat + proof.one.v.toNat

section Split

variable (hq : G.q.toNat.Prime) (hα : x.alpha = G.element α) (hβ : x.beta = G.element β)
  (h0 : proof.zero.Passes G x key 0) (h1 : proof.one.Passes G x key 1)
  (h0' : proof'.zero.Passes G x key 0) (h1' : proof'.one.Passes G x key 1)

include hα hβ h0 h1

theorem exists_sums :
    ∃ a0 b0 a1 b1 : G.Members,
      (proof.zero.toCommitment = ⟨G.element a0, G.element b0⟩ ∧
        proof.one.toCommitment = ⟨G.element a1, G.element b1⟩) ∧
      (proof.responseSum : ZMod G.q.toNat) • G.base =
        a0 + a1 + (G.exponent proof.zero.c + G.exponent proof.one.c) • α ∧
      (key.toNat : ZMod G.p.toNat) ^ proof.responseSum =
        (b0 + b1 + (G.exponent proof.zero.c + G.exponent proof.one.c) • β -
          G.exponent proof.one.c • G.base).value := by
  obtain ⟨a0, b0, ⟨ha0, hb0⟩, eα0, eβ0⟩ := h0.exists_members hα hβ
  obtain ⟨a1, b1, ⟨ha1, hb1⟩, eα1, eβ1⟩ := h1.exists_members hα hβ
  refine ⟨a0, b0, a1, b1, ⟨Commitment.ext ha0 hb0, Commitment.ext ha1 hb1⟩, ?_, ?_⟩
  · have hcast : (proof.responseSum : ZMod G.q.toNat) =
        G.exponent proof.zero.v + G.exponent proof.one.v := Nat.cast_add _ _
    rw [hcast, add_smul, eα0, eα1]
    module
  · rw [responseSum, pow_add, eβ0, eβ1, ← value_add, Nat.cast_zero, mul_zero, Nat.cast_one, mul_one]
    congr 1
    module

include hq

/-- If the sum of the responses exceeds a congruent number, then by the order, and the key to the
order is a member only if it is one. -/
theorem pow_responseSum_sub {n : Nat} {a : G.Members} (hle : n ≤ proof.responseSum)
    (hmod : n ≡ proof.responseSum [MOD G.q.toNat])
    (hpow : (key.toNat : ZMod G.p.toNat) ^ (proof.responseSum - n) = a.value) :
    (key.toNat : ZMod G.p.toNat) ^ (proof.responseSum - n) = 1 := by
  by_cases hzero : proof.responseSum - n = 0
  · rw [hzero, pow_zero]
  · have hv0 := isReduced_iff.1 h0.v_reduced
    have hv1 := isReduced_iff.1 h1.v_reduced
    have hlt : proof.responseSum - n < 2 * G.q.toNat := by
      unfold responseSum
      omega
    have hsub : proof.responseSum - n = G.q.toNat :=
      Nat.eq_of_dvd_of_lt_two_mul hzero ((Nat.modEq_iff_dvd' hle).1 hmod) hlt
    -- each response is below the order, so neither can make up the difference alone
    have hpos : 0 < proof.zero.v.toNat := by
      unfold responseSum at hsub
      omega
    obtain ⟨_, _, -, -, hkey⟩ := h0.exists_members hα hβ
    rw [hsub] at hpow ⊢
    exact pow_q_eq_one_of_pow hq hpos hv0 hkey hpow

include h0' h1'

theorem responseSum_modEq (hsame : SameCommitments proof proof')
    (hsum : G.exponent proof.zero.c + G.exponent proof.one.c =
      G.exponent proof'.zero.c + G.exponent proof'.one.c)
    (hle : proof'.responseSum ≤ proof.responseSum) :
    proof'.responseSum ≡ proof.responseSum [MOD G.q.toNat] ∧
      (key.toNat : ZMod G.p.toNat) ^ (proof.responseSum - proof'.responseSum) =
        ((G.exponent proof'.one.c - G.exponent proof.one.c) • G.base).value := by
  obtain ⟨a0, b0, a1, b1, ⟨hzero, hone⟩, eα, eβ⟩ := exists_sums hα hβ h0 h1
  obtain ⟨a0', b0', a1', b1', ⟨hzero', hone'⟩, eα', eβ'⟩ := exists_sums hα hβ h0' h1'
  rw [hsame.1, hzero', Commitment.mk.injEq, element_inj, element_inj] at hzero
  rw [hsame.2, hone', Commitment.mk.injEq, element_inj, element_inj] at hone
  obtain ⟨rfl, rfl⟩ := hzero
  obtain ⟨rfl, rfl⟩ := hone
  rw [hsum] at eα eβ
  constructor
  · rw [← ZMod.natCast_eq_natCast_iff, ← smul_base_inj hq, eα, eα']
  · rw [← Nat.add_sub_cancel' hle, pow_add, eβ', value_mul_eq_iff] at eβ
    rw [eβ]
    congr 1
    module

/-- **The split of a challenge is determined** by the commitments, also under a key outside the
group. -/
theorem challenge_eq_of_le (hsame : SameCommitments proof proof')
    (hsum : G.exponent proof.zero.c + G.exponent proof.one.c =
      G.exponent proof'.zero.c + G.exponent proof'.one.c)
    (hle : proof'.responseSum ≤ proof.responseSum) :
    G.exponent proof.one.c = G.exponent proof'.one.c := by
  obtain ⟨hmod, hpow⟩ := responseSum_modEq hq hα hβ h0 h1 h0' h1' hsame hsum hle
  have hone := pow_responseSum_sub hq hα hβ h0 h1 hle hmod hpow
  rw [hpow, ← value_zero] at hone
  have hzero := value_injective hone
  rw [← zero_smul (ZMod G.q.toNat) G.base, smul_base_inj hq] at hzero
  exact (sub_eq_zero.1 hzero).symm

end Split

theorem eq_of_sameCommitments (hq : G.q.toNat.Prime)
    (h : (proof.checks H G x key).isValid = true) (h' : (proof'.checks H G x key).isValid = true)
    (hsame : SameCommitments proof proof') : proof = proof' := by
  obtain ⟨hc, hx, h0, h1⟩ := holds_iff.1 (checks_isValid_iff.1 h)
  obtain ⟨hc', -, h0', h1'⟩ := holds_iff.1 (checks_isValid_iff.1 h')
  obtain ⟨α, β, hα, hβ⟩ := Ciphertext.exists_members hx
  have hderived : proof.derivedChallenge H G x = proof'.derivedChallenge H G x := by
    rw [derivedChallenge, derivedChallenge, hsame.1, hsame.2]
  have hsum : G.exponent proof.zero.c + G.exponent proof.one.c =
      G.exponent proof'.zero.c + G.exponent proof'.one.c := by
    rw [← exponent_add, ← exponent_add, ← hc, ← hc', hderived]
  have hone : G.exponent proof.one.c = G.exponent proof'.one.c := by
    rcases Nat.le_total proof'.responseSum proof.responseSum with hle | hle
    · exact challenge_eq_of_le hq hα hβ h0 h1 h0' h1' hsame hsum hle
    · exact (challenge_eq_of_le hq hα hβ h0' h1' h0 h1 hsame.symm hsum.symm hle).symm
  have hzero : G.exponent proof.zero.c = G.exponent proof'.zero.c := by
    rw [hone] at hsum
    exact add_right_cancel hsum
  refine DisjunctiveProof.ext ?_ ?_
  · exact h0.eq_of_challenge hq hα h0' hsame.1
      (scalar_ext (isReduced_iff.1 h0.c_reduced) (isReduced_iff.1 h0'.c_reduced) hzero)
  · exact h1.eq_of_challenge hq hα h1' hsame.2
      (scalar_ext (isReduced_iff.1 h1.c_reduced) (isReduced_iff.1 h1'.c_reduced) hone)

theorem eq_of_sameScalars (h : (proof.checks H G x key).isValid = true)
    (h' : (proof'.checks H G x key).isValid = true) (hsame : SameScalars proof proof') :
    proof = proof' := by
  obtain ⟨-, hx, h0, h1⟩ := holds_iff.1 (checks_isValid_iff.1 h)
  obtain ⟨-, -, h0', h1'⟩ := holds_iff.1 (checks_isValid_iff.1 h')
  obtain ⟨α, β, hα, hβ⟩ := Ciphertext.exists_members hx
  obtain ⟨⟨hc0, hv0⟩, hc1, hv1⟩ := hsame
  exact DisjunctiveProof.ext (h0.eq_of_answer hα hβ h0' hc0 hv0)
    (h1.eq_of_answer hα hβ h1' hc1 hv1)

theorem eq_of_same (hq : G.q.toNat.Prime) (h : (proof.checks H G x key).isValid = true)
    (h' : (proof'.checks H G x key).isValid = true)
    (hsame : SameCommitments proof proof' ∨ SameScalars proof proof') : proof = proof' := by
  rcases hsame with hsame | hsame
  · exact eq_of_sameCommitments hq h h' hsame
  · exact eq_of_sameScalars h h' hsame

theorem isSome_slot? {name : String} (h : name ∈ shape.fields.map Prod.fst) :
    (proof.slot? name).isSome = true := by
  revert name
  simp [shape, slot?, Transcript.slot?]

theorem pinned_of_isValid (hq : G.q.toNat.Prime) (h : (proof.checks H G x key).isValid = true)
    {name : String} {slot : Slot} (hslot : proof.slot? name = some slot) :
    slot.Pinned (fun proof' => (proof'.checks H G x key).isValid = true) ∅ := by
  unfold DisjunctiveProof.slot? at hslot
  split at hslot
  · refine Transcript.pinned_of_slot? h (fun t' h' hsame => ?_) ∅ hslot
    have heq : proof = { proof with zero := t' } :=
      eq_of_same hq h h' (hsame.imp (fun hab => ⟨hab, rfl⟩) fun hcv => ⟨hcv, rfl, rfl⟩)
    exact congrArg zero heq
  · refine Transcript.pinned_of_slot? h (fun t' h' hsame => ?_) ∅ hslot
    have heq : proof = { proof with one := t' } :=
      eq_of_same hq h h' (hsame.imp (fun hab => ⟨rfl, hab⟩) fun hcv => ⟨⟨rfl, rfl⟩, hcv⟩)
    exact congrArg one heq
  · exact nomatch hslot

/-- **Zero-or-one proofs are not malleable.**  For every ciphertext, every word as the key and every
hash function, two accepted proofs that share their four commitments or their four scalars are the
same.  So no change that is confined to the scalars, to the commitments or to a single field turns
an accepted proof into another one. -/
theorem eq_of_isValid (H : HashFunction) (G : SchnorrGroup) (hq : G.q.toNat.Prime)
    (x : Ciphertext) (key : Element) :
    (∀ proof proof' : DisjunctiveProof, (proof.checks H G x key).isValid = true →
      (proof'.checks H G x key).isValid = true →
      SameCommitments proof proof' ∨ SameScalars proof proof' → proof = proof') ∧
      ∀ proof : DisjunctiveProof, (proof.checks H G x key).isValid = true →
        ∀ name ∈ shape.fields.map Prod.fst, ∃ slot, proof.slot? name = some slot ∧
          slot.Pinned (fun proof' => (proof'.checks H G x key).isValid = true) ∅ := by
  constructor
  · exact fun _ _ h h' hsame => eq_of_same hq h h' hsame
  · intro proof h name hname
    obtain ⟨slot, hslot⟩ := Option.isSome_iff_exists.1 (isSome_slot? hname)
    exact ⟨slot, hslot, pinned_of_isValid hq h hslot⟩

/-- A key outside the group of order 11, under which a proof with even responses is accepted. -/
theorem eq_of_isValid_small :
    let H : HashFunction := fun _ => (Vector.replicate 31 0).push 3
    let x : Ciphertext := ⟨small.toElement 2, small.toElement 3⟩
    let key := small.toElement 5
    let proof : DisjunctiveProof :=
      ⟨.simulate small x key 0 (small.toScalar 1) (small.toScalar 2),
        .simulate small x key 1 (small.toScalar 2) (small.toScalar 4)⟩
    small.isMember key = false ∧ (proof.checks H small x key).isValid = true ∧
      (∀ proof' : DisjunctiveProof, (proof'.checks H small x key).isValid = true →
        SameCommitments proof proof' → proof = proof') ∧
      ∀ v, (DisjunctiveProof.checks H small x key
        { proof with one := { proof.one with v } }).isValid = true ↔ v = small.toScalar 4 := by
  intro H x key proof
  have hc : proof.derivedChallenge H small x = small.toScalar 3 := challenge_eq_toScalar
  have hvalid : (proof.checks H small x key).isValid = true :=
    isValid_of_derivedChallenge hc (by decide +kernel)
  obtain ⟨hsame, hpinned⟩ := eq_of_isValid H small small_q_prime x key
  obtain ⟨slot, hslot, hv1⟩ := hpinned proof hvalid "v1" (by decide)
  obtain rfl := Option.some.inj hslot
  exact ⟨by decide, hvalid, fun proof' h' h => hsame proof proof' hvalid h' (.inl h), hv1⟩

end DisjunctiveProof

/-! ### Proofs of a known plaintext -/

namespace ConstantProof

variable {proof proof' : ConstantProof}

theorem eq_of_sameCommitment (hq : G.q.toNat.Prime)
    (h : (proof.checks H G x key).isValid = true) (h' : (proof'.checks H G x key).isValid = true)
    (hsame : proof.toCommitment = proof'.toCommitment) :
    proof.toTranscript = proof'.toTranscript := by
  obtain ⟨hc, hx, -, ht⟩ := holds_iff.1 (checks_isValid_iff.1 h)
  obtain ⟨hc', -, -, ht'⟩ := holds_iff.1 (checks_isValid_iff.1 h')
  obtain ⟨α, -, hα, -⟩ := Ciphertext.exists_members hx
  refine ht.eq_of_challenge hq hα ht' hsame ?_
  rw [← hc, ← hc', derivedChallenge, derivedChallenge, hsame]

theorem eq_of_sameScalars (h : (proof.checks H G x key).isValid = true)
    (h' : (proof'.checks H G x key).isValid = true) (hc : proof.c = proof'.c)
    (hv : proof.v = proof'.v) (hconstant : proof.constant = proof'.constant) : proof = proof' := by
  obtain ⟨-, hx, -, ht⟩ := holds_iff.1 (checks_isValid_iff.1 h)
  obtain ⟨-, -, -, ht'⟩ := holds_iff.1 (checks_isValid_iff.1 h')
  obtain ⟨α, β, hα, hβ⟩ := Ciphertext.exists_members hx
  rw [← hconstant] at ht'
  have heq := ht.eq_of_answer hα hβ ht' hc hv
  exact ConstantProof.ext (congrArg (fun t : Transcript => t.a) heq)
    (congrArg (fun t : Transcript => t.b) heq) hc hv hconstant

theorem eq_of_inRange {m n : Int64} (hm : InRange G m) (hn : InRange G n)
    (h : (m.toInt.toNat : ZMod G.q.toNat) = (n.toInt.toNat : ZMod G.q.toNat)) : m = n := by
  obtain ⟨hm0, hm⟩ := hm
  obtain ⟨hn0, hn⟩ := hn
  rw [lt_min_iff] at hm hn
  have hmod := (ZMod.natCast_eq_natCast_iff _ _ _).1 h
  have heq := hmod.eq_of_lt_of_lt (by omega) (by omega)
  exact Int64.toInt_inj.1 (by omega)

/-- **The plaintext of an accepted proof is free exactly if the challenge is zero.** -/
theorem isValid_constant_iff (hq : G.q.toNat.Prime) (h : (proof.checks H G x key).isValid = true)
    (m : Int64) :
    (ConstantProof.checks H G x key { proof with constant := m }).isValid = true ↔
      m = proof.constant ∨ proof.c.toNat = 0 ∧ InRange G m := by
  have := Fact.mk hq
  obtain ⟨hc, hx, hrange, ht⟩ := holds_iff.1 (checks_isValid_iff.1 h)
  obtain ⟨-, β, -, hβ⟩ := Ciphertext.exists_members hx
  have hc0 := exponent_eq_zero_iff (isReduced_iff.1 ht.c_reduced)
  have hpasses := ht.congr_plaintext hq hβ m.toInt.toNat
  constructor
  · intro h'
    obtain ⟨-, -, hrange', ht'⟩ := holds_iff.1 (checks_isValid_iff.1 h')
    by_cases hzero : proof.c.toNat = 0
    · exact .inr ⟨hzero, hrange'⟩
    · have heq := mul_left_cancel₀ (fun h0 => hzero (hc0.1 h0)) (hpasses.1 ht')
      exact .inl (eq_of_inRange hrange' hrange heq.symm)
  · rintro (rfl | ⟨hzero, hrange'⟩)
    · exact h
    · refine checks_isValid_iff.2 (holds_iff.2 ⟨hc, hx, hrange', hpasses.2 ?_⟩)
      rw [hc0.2 hzero, zero_mul, zero_mul]

theorem isSome_slot? {name : String} (h : name ∈ shape.fields.map Prod.fst) :
    (proof.slot? name).isSome = true := by
  revert name
  simp [shape, slot?, Transcript.slot?]

theorem pinned_of_isValid (hq : G.q.toNat.Prime) (h : (proof.checks H G x key).isValid = true)
    {name : String} {slot : Slot} (hslot : proof.slot? name = some slot) :
    slot.Pinned (fun proof' => (proof'.checks H G x key).isValid = true)
      {m | m = proof.constant ∨ proof.c.toNat = 0 ∧ InRange G m} := by
  unfold ConstantProof.slot? at hslot
  split_ifs at hslot
  · obtain rfl := Option.some.inj hslot
    exact isValid_constant_iff hq h
  · split at hslot
    · refine Transcript.pinned_of_slot? h (fun t' h' hsame => ?_) _ hslot
      rcases hsame with hab | ⟨hc, hv⟩
      · exact eq_of_sameCommitment hq h h' hab
      · have heq : proof = ⟨t', proof.constant⟩ := eq_of_sameScalars h h' hc hv rfl
        exact congrArg toTranscript heq
    · exact nomatch hslot

/-- **Proofs of a known plaintext are not malleable, with one exception.**  For every ciphertext,
every word as the key and every hash function, the commitment of an accepted proof determines its
challenge and its response, and these and the plaintext determine the commitment.  The plaintext is
determined as well unless the challenge is zero; then every plaintext in range is accepted.  So this
is the only change of a single field that leaves a proof accepted. -/
theorem isValid_changes (H : HashFunction) (G : SchnorrGroup) (hq : G.q.toNat.Prime)
    (x : Ciphertext) (key : Element) :
    (∀ proof proof' : ConstantProof, (proof.checks H G x key).isValid = true →
      (proof'.checks H G x key).isValid = true →
        (proof.a = proof'.a → proof.b = proof'.b → proof.c = proof'.c ∧ proof.v = proof'.v) ∧
        (proof.c = proof'.c → proof.v = proof'.v → proof.constant = proof'.constant →
          proof = proof') ∧
        (proof.toTranscript = proof'.toTranscript →
          proof.constant = proof'.constant ∨ proof.c.toNat = 0)) ∧
      ∀ proof : ConstantProof, (proof.checks H G x key).isValid = true →
        (proof.c.toNat = 0 → ∀ m, InRange G m →
          (ConstantProof.checks H G x key { proof with constant := m }).isValid = true) ∧
        ∀ name ∈ shape.fields.map Prod.fst, ∃ slot, proof.slot? name = some slot ∧
          slot.Pinned (fun proof' => (proof'.checks H G x key).isValid = true)
            {m | m = proof.constant ∨ proof.c.toNat = 0 ∧ InRange G m} := by
  constructor
  · intro proof proof' h h'
    refine ⟨fun ha hb => ?_, eq_of_sameScalars h h', fun htranscript => ?_⟩
    · have heq := eq_of_sameCommitment hq h h' (Commitment.ext ha hb)
      exact ⟨congrArg Transcript.c heq, congrArg Transcript.v heq⟩
    · have h'' : (ConstantProof.checks H G x key
          { proof with constant := proof'.constant }).isValid = true := by
        rwa [htranscript]
      rcases (isValid_constant_iff hq h proof'.constant).1 h'' with heq | ⟨hzero, -⟩
      · exact .inl heq.symm
      · exact .inr hzero
  · intro proof h
    refine ⟨fun hzero m hm => (isValid_constant_iff hq h m).2 (.inr ⟨hzero, hm⟩), ?_⟩
    intro name hname
    obtain ⟨slot, hslot⟩ := Option.isSome_iff_exists.1 (isSome_slot? hname)
    exact ⟨slot, hslot, pinned_of_isValid hq h hslot⟩

/-- An accepted proof whose challenge is zero: its response is determined, but its plaintext can be
any one in range. -/
theorem isValid_changes_small :
    let H : HashFunction := fun _ => Vector.replicate 32 0
    let x : Ciphertext := ⟨small.toElement 12, small.toElement 3⟩
    let key := small.toElement 18
    let proof : ConstantProof :=
      ⟨(Commitment.ofNonce small key (small.toScalar 8)).respond small (small.toScalar 8)
        (small.toScalar 5) (small.toScalar 0), 1⟩
    (proof.checks H small x key).isValid = true ∧
      (∀ v, (ConstantProof.checks H small x key { proof with v }).isValid = true ↔
        v = small.toScalar 8) ∧
      ∀ m, (ConstantProof.checks H small x key { proof with constant := m }).isValid = true ↔
        InRange small m := by
  intro H x key proof
  have hc : proof.derivedChallenge H small x = small.toScalar 0 := challenge_eq_toScalar
  have hvalid : (proof.checks H small x key).isValid = true :=
    isValid_of_derivedChallenge hc (by decide +kernel)
  obtain ⟨-, hpinned⟩ := (isValid_changes H small small_q_prime x key).2 proof hvalid
  obtain ⟨slot, hslot, hv⟩ := hpinned "v" (by decide)
  obtain rfl := Option.some.inj hslot
  obtain ⟨slot, hslot, hconstant⟩ := hpinned "constant" (by decide)
  obtain rfl := Option.some.inj hslot
  have hresponse : proof.v = small.toScalar 8 := by decide +kernel
  refine ⟨hvalid, fun v => (hv v).trans (Eq.congr_right hresponse), fun m => ?_⟩
  refine (hconstant m).trans ⟨?_, ?_⟩
  · rintro (hm | ⟨-, hm⟩)
    · rw [hm]
      exact ⟨by decide, by decide⟩
    · exact hm
  · exact fun hm => .inr ⟨rfl, hm⟩

end ConstantProof

end BallotProof
