import BallotProof.Proofs.Members
import Mathlib.Data.Set.Card
import Mathlib.RingTheory.RootsOfUnity.PrimitiveRoots

/-!
# Members and powers of the generator

The membership test asks whether an element is a `q`-th root of unity modulo `p`, and says nothing
of the generator.  Such elements are closed under the operations of the group in any case.  For
prime `q` the powers of the generator to reduced exponents are all different, and if `p` is prime as
well there are no other members.

* `SchnorrGroup.isMember_prod`, `SchnorrGroup.isMember_pow`, `SchnorrGroup.inverse?_eq_pow` :
  **members are closed under products, powers and inverses**, whether or not `p` and `q` are prime.
* `SchnorrGroup.generatorPow_inj` : for prime `q`, reduced exponents give different powers.
* `SchnorrGroup.orderOf_g` : for prime `q`, the order of the generator is `q`.
* `SchnorrGroup.exists_smul_base` : for prime `p` and `q`, every member is a multiple of the
  generator.
* `SchnorrGroup.ncard_isMember` : then `q` elements pass the test.
* `SchnorrGroup.isMember_generated` : **the members are exactly the powers of the generator.**
-/

namespace BallotProof

namespace SchnorrGroup

variable {G : SchnorrGroup}

/-! ### Closure -/

theorem exists_map_element {xs : List Element} (h : ∀ x ∈ xs, G.isMember x = true) :
    ∃ as : List G.Members, xs = as.map G.element := by
  induction xs with
  | nil => exact ⟨[], rfl⟩
  | cons x xs ih =>
    rw [List.forall_mem_cons] at h
    obtain ⟨a, ha⟩ := isMember_iff_exists.1 h.1
    obtain ⟨as, has⟩ := ih h.2
    exact ⟨a :: as, by rw [ha, has, List.map_cons]⟩

theorem isMember_prod {xs : List Element} (h : ∀ x ∈ xs, G.isMember x = true) :
    G.isMember (G.prod xs) = true := by
  obtain ⟨as, rfl⟩ := exists_map_element h
  rw [prod_map_element]
  exact isMember_element _

theorem isMember_pow {x : Element} (h : G.isMember x = true) (e : Scalar) :
    G.isMember (G.pow x e) = true := by
  obtain ⟨a, rfl⟩ := isMember_iff_exists.1 h
  rw [pow_element]
  exact isMember_element _

theorem inverse?_eq_pow {x : Element} (h : G.isMember x = true) :
    G.inverse? x = some (G.pow x (G.neg 1)) := by
  obtain ⟨a, rfl⟩ := isMember_iff_exists.1 h
  rw [inverse?_element, pow_element, exponent_neg, exponent_one, neg_smul, one_smul]

/-! ### Powers of the generator -/

theorem generatorPow_inj (hq : G.q.toNat.Prime) {e e' : Scalar} (he : e.toNat < G.q.toNat)
    (he' : e'.toNat < G.q.toNat) : G.generatorPow e = G.generatorPow e' ↔ e = e' := by
  constructor
  · intro h
    rw [generatorPow_eq, generatorPow_eq, element_inj, smul_base_inj hq] at h
    exact scalar_ext he he' h
  · rintro rfl
    rfl

theorem generatorPow_zero : G.generatorPow 0 = 1 := by
  rw [generatorPow_eq, exponent_zero, zero_smul, one_eq]

theorem generatorPow_one : G.generatorPow 1 = G.generator := by
  rw [generatorPow_eq, exponent_one, one_smul, generator_eq]

/-! ### The order of the generator -/

theorem orderOf_g_dvd : orderOf (G.g.toNat : ZMod G.p.toNat) ∣ G.q.toNat :=
  orderOf_dvd_of_pow_eq_one (value_pow_q G.base)

theorem one_lt_orderOf_g : 1 < orderOf (G.g.toNat : ZMod G.p.toNat) := by
  have hpos : 0 < orderOf (G.g.toNat : ZMod G.p.toNat) :=
    Nat.pos_of_dvd_of_pos orderOf_g_dvd G.q_pos
  have hne : orderOf (G.g.toNat : ZMod G.p.toNat) ≠ 1 := by
    intro h
    exact base_ne_zero (value_injective (orderOf_eq_one_iff.1 h))
  omega

theorem orderOf_g (hq : G.q.toNat.Prime) : orderOf (G.g.toNat : ZMod G.p.toNat) = G.q.toNat :=
  (hq.eq_one_or_self_of_dvd _ orderOf_g_dvd).resolve_left one_lt_orderOf_g.ne'

/-! ### Members as powers -/

/-- For prime `p` and `q`, every member is a multiple of the generator: the `q`-th roots of unity in
a field are the powers of any one of them whose order is `q`. -/
theorem exists_smul_base (hp : G.p.toNat.Prime) (hq : G.q.toNat.Prime) (a : G.Members) :
    ∃ c : ZMod G.q.toNat, a = c • G.base := by
  have := Fact.mk hp
  have hprimitive : IsPrimitiveRoot G.base.value G.q.toNat :=
    IsPrimitiveRoot.iff_orderOf.2 (orderOf_g hq)
  obtain ⟨n, -, hn⟩ := hprimitive.eq_pow_of_pow_eq_one (value_pow_q a)
  refine ⟨n, value_injective ?_⟩
  rw [← hn, Nat.cast_smul_eq_nsmul, value_nsmul]

theorem isMember_iff_generatorPow (hp : G.p.toNat.Prime) (hq : G.q.toNat.Prime) {x : Element} :
    G.isMember x = true ↔ ∃ e : Scalar, e.toNat < G.q.toNat ∧ G.generatorPow e = x := by
  constructor
  · intro h
    obtain ⟨a, rfl⟩ := isMember_iff_exists.1 h
    obtain ⟨c, rfl⟩ := exists_smul_base hp hq a
    refine ⟨G.toScalar c.val, toScalar_lt _, ?_⟩
    rw [generatorPow_eq, exponent_toScalar_val]
  · rintro ⟨e, -, rfl⟩
    rw [generatorPow_eq]
    exact isMember_element _

theorem ncard_isMember (hp : G.p.toNat.Prime) (hq : G.q.toNat.Prime) :
    {x | G.isMember x = true}.ncard = G.q.toNat := by
  have hinjective : Function.Injective fun c : ZMod G.q.toNat => G.element (c • G.base) :=
    fun c d h => (smul_base_inj hq).1 (element_injective h)
  have hrange : {x | G.isMember x = true} =
      Set.range fun c : ZMod G.q.toNat => G.element (c • G.base) := by
    ext x
    rw [Set.mem_ofPred_eq, isMember_iff_exists, Set.mem_range]
    constructor
    · rintro ⟨a, rfl⟩
      obtain ⟨c, rfl⟩ := exists_smul_base hp hq a
      exact ⟨c, rfl⟩
    · rintro ⟨c, rfl⟩
      exact ⟨_, rfl⟩
  rw [hrange, ← Set.image_univ, Set.ncard_image_of_injective _ hinjective, Set.ncard_univ,
    Nat.card_zmod]

/-! ### Public keys -/

theorem publicKey_inj (hq : G.q.toNat.Prime) {s s' : Scalar} {keys keys' : KeyPair}
    (h : KeyPair.ofSecret G s = .ok keys) (h' : KeyPair.ofSecret G s' = .ok keys') :
    keys.publicKey = keys'.publicKey ↔ s = s' := by
  obtain ⟨-, hlt, rfl⟩ := KeyPair.ofSecret_eq_ok_iff.1 h
  obtain ⟨-, hlt', rfl⟩ := KeyPair.ofSecret_eq_ok_iff.1 h'
  exact generatorPow_inj hq hlt hlt'

theorem publicKey_ne (hq : G.q.toNat.Prime) {s : Scalar} {keys : KeyPair}
    (h : KeyPair.ofSecret G s = .ok keys) :
    keys.publicKey ≠ 1 ∧ keys.publicKey ≠ G.generator := by
  obtain ⟨htwo, hlt, rfl⟩ := KeyPair.ofSecret_eq_ok_iff.1 h
  have hzero_lt : (0 : Scalar).toNat < G.q.toNat := by
    rw [toNat_zero]
    exact G.q_pos
  have hone_lt : (1 : Scalar).toNat < G.q.toNat := by
    rw [toNat_scalar_one]
    exact G.one_lt_q
  constructor
  · intro hone
    have hs := (generatorPow_inj hq hlt hzero_lt).1 (hone.trans generatorPow_zero.symm)
    rw [hs, toNat_zero] at htwo
    omega
  · intro hg
    have hs := (generatorPow_inj hq hlt hone_lt).1 (hg.trans generatorPow_one.symm)
    rw [hs, toNat_scalar_one] at htwo
    omega

/-- **The members are exactly the powers of the generator.**  In every group, products, powers and
inverses of members are members, and the inverse of a member is its power to the opposite of one.
If `q` is prime, reduced exponents give different powers of the generator, so that different secrets
have different public keys, none of which is one or the generator.  If `p` is prime as well, the
words that pass the membership test are the powers of the generator to reduced exponents, each for
one exponent, and there are `q` of them. -/
theorem isMember_generated (G : SchnorrGroup) :
    (∀ xs, (∀ x ∈ xs, G.isMember x = true) → G.isMember (G.prod xs) = true) ∧
    (∀ x e, G.isMember x = true → G.isMember (G.pow x e) = true) ∧
    (∀ x, G.isMember x = true → ∃ y, G.inverse? x = some y ∧ y = G.pow x (G.neg 1) ∧
      G.isMember y = true) ∧
    (G.q.toNat.Prime →
      (∀ e e' : Scalar, e.toNat < G.q.toNat → e'.toNat < G.q.toNat →
        G.generatorPow e = G.generatorPow e' → e = e') ∧
      (∀ s s' keys keys', KeyPair.ofSecret G s = .ok keys → KeyPair.ofSecret G s' = .ok keys' →
        s ≠ s' → keys.publicKey ≠ keys'.publicKey) ∧
      (∀ s keys, KeyPair.ofSecret G s = .ok keys →
        keys.publicKey ≠ 1 ∧ keys.publicKey ≠ G.generator) ∧
      (G.p.toNat.Prime →
        (∀ x, G.isMember x = true ↔ ∃ e : Scalar, e.toNat < G.q.toNat ∧ G.generatorPow e = x) ∧
        (∀ x, G.isMember x = true →
          ∃! e : Scalar, e.toNat < G.q.toNat ∧ G.generatorPow e = x) ∧
        {x | G.isMember x = true}.ncard = G.q.toNat)) := by
  refine ⟨fun xs h => isMember_prod h, fun x e h => isMember_pow h e,
    fun x h => ⟨_, inverse?_eq_pow h, rfl, isMember_pow h _⟩, fun hq => ⟨?_, ?_, ?_, fun hp => ?_⟩⟩
  · exact fun e e' he he' h => (generatorPow_inj hq he he').1 h
  · exact fun s s' keys keys' h h' hne heq => hne ((publicKey_inj hq h h').1 heq)
  · exact fun s keys h => publicKey_ne hq h
  · refine ⟨fun x => isMember_iff_generatorPow hp hq, fun x hx => ?_, ncard_isMember hp hq⟩
    obtain ⟨e, he, rfl⟩ := (isMember_iff_generatorPow hp hq).1 hx
    refine ⟨e, ⟨he, rfl⟩, ?_⟩
    rintro e' ⟨he', heq⟩
    exact (generatorPow_inj hq he' he).1 heq

theorem small_p_prime : small.p.toNat.Prime := by
  decide +kernel

/-- The squares modulo 23, with the public key of the secret 3. -/
theorem isMember_generated_small :
    let key := smallKeys.publicKey
    small.isMember key = true ∧
      small.isMember (small.prod [key, small.generator]) = true ∧
      small.isMember (small.pow key (small.toScalar 7)) = true ∧
      (∃ y, small.inverse? key = some y ∧ y = small.pow key (small.neg 1) ∧
        small.isMember y = true) ∧
      (key ≠ 1 ∧ key ≠ small.generator) ∧
      (∃! e : Scalar, e.toNat < small.q.toNat ∧ small.generatorPow e = key) ∧
      {x | small.isMember x = true}.ncard = small.q.toNat := by
  intro key
  have hkey : small.isMember key = true := by decide +kernel
  obtain ⟨hprod, hpow, hinverse, hprime⟩ := isMember_generated small
  obtain ⟨-, -, hpublic, hboth⟩ := hprime small_q_prime
  obtain ⟨-, hunique, hcard⟩ := hboth small_p_prime
  refine ⟨hkey, hprod _ ?_, hpow _ _ hkey, hinverse _ hkey, hpublic _ _ ofSecret_small,
    hunique _ hkey, hcard⟩
  simpa [List.forall_mem_cons] using hkey

end SchnorrGroup

end BallotProof
