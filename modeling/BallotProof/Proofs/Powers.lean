import BallotProof.Proofs.Members

/-!
# Powers and products

A power reduces its exponent modulo `q` and then scans as many low bits as `q` has.  This loses
nothing: every number up to `q` fits in these bits.  Bases and factors are taken modulo `p` as they
come.  Whether the reduction of the exponent can be seen depends on the base alone.  If the `q`-th
power of the base is one modulo `p`, its powers are those of a member, exponents count modulo `q`,
and the laws of powers follow from the module.

* `SchnorrGroup.pow_congr` : a power depends on the classes of base and exponent.
* `SchnorrGroup.pow_eq_element` : a base whose `q`-th power is one, reduced or not, has the powers
  of a member.
* `SchnorrGroup.pow_add`, `SchnorrGroup.pow_mul`, `SchnorrGroup.prod_pow_neg` : the laws of powers,
  with exponents computed by the operations on scalars.
* `SchnorrGroup.pow_prod_exact` : **powers and products are exact**, on all words.
-/

namespace BallotProof

namespace SchnorrGroup

variable {G : SchnorrGroup}

/-! ### Powers of any word -/

theorem toNat_pow_modEq (b : Element) (e : Scalar) :
    (G.pow b e).toNat ≡ b.toNat ^ (e.toNat % G.q.toNat) [MOD G.p.toNat] := by
  rw [toNat_pow]
  exact Nat.mod_modEq _ _

theorem pow_congr {y z : Element} {e f : Scalar} (hy : y.toNat ≡ z.toNat [MOD G.p.toNat])
    (he : e.toNat ≡ f.toNat [MOD G.q.toNat]) : G.pow y e = G.pow z f := by
  apply Element.ext
  rw [toNat_pow, toNat_pow, he]
  exact hy.pow _

/-! ### Bases whose `q`-th power is one -/

theorem toNat_element_pow_modEq (a : G.Members) (n : Nat) :
    (G.element a).toNat ^ n ≡ (G.element ((n : ZMod G.q.toNat) • a)).toNat [MOD G.p.toNat] := by
  rw [← toElement_pow, toNat_toElement]
  exact (Nat.mod_modEq _ _).symm

theorem pow_mod_q {b : Nat} (hb : b ^ G.q.toNat % G.p.toNat = 1) (n : Nat) :
    b ^ (n % G.q.toNat) ≡ b ^ n [MOD G.p.toNat] := by
  have hroot : (b : ZMod G.p.toNat) ^ G.q.toNat = 1 := by
    rw [← Nat.cast_pow, cast_eq_one_iff, hb]
  rw [← ZMod.natCast_eq_natCast_iff, Nat.cast_pow, Nat.cast_pow, ← pow_eq_pow_mod n hroot]

theorem g_pow_mod_q (n : Nat) :
    G.g.toNat ^ (n % G.q.toNat) ≡ G.g.toNat ^ n [MOD G.p.toNat] :=
  pow_mod_q G.g_pow_q n

section

variable {b : Element} (hb : b.toNat ^ G.q.toNat % G.p.toNat = 1)

include hb

/-- The reduction of the exponent cannot be seen. -/
theorem toNat_pow_of_root (e : Scalar) :
    (G.pow b e).toNat = b.toNat ^ e.toNat % G.p.toNat := by
  rw [toNat_pow]
  exact pow_mod_q hb e.toNat

/-- The powers are those of a member, also where the word is not reduced. -/
theorem pow_eq_element (e : Scalar) :
    G.pow b e = G.element (G.exponent e • G.member b.toNat hb) := by
  rw [← pow_element]
  refine pow_congr ?_ rfl
  rw [← ZMod.natCast_eq_natCast_iff, cast_toNat_element, value_member]

protected theorem pow_add (d e : Scalar) :
    G.pow b (G.add d e) = G.prod [G.pow b d, G.pow b e] := by
  simp only [pow_eq_element hb, prod_element_pair, exponent_add, add_smul]

protected theorem pow_mul (d e : Scalar) : G.pow (G.pow b d) e = G.pow b (G.mul d e) := by
  rw [pow_eq_element hb, pow_element, smul_smul, pow_eq_element hb, exponent_mul, mul_comm]

theorem prod_pow_neg (e : Scalar) : G.prod [G.pow b e, G.pow b (G.neg e)] = 1 := by
  rw [pow_eq_element hb, pow_eq_element hb, prod_element_pair, exponent_neg, neg_smul,
    add_neg_cancel, one_eq]

end

/-! ### Products of any words -/

theorem natProd_eq_prod (xs : List Element) : natProd xs = (xs.map fun x => x.toNat).prod := by
  induction xs with
  | nil => rfl
  | cons x xs ih => rw [natProd, ih, List.map_cons, List.prod_cons]

/-- **Powers and products are exact.**  For any words, a power is the one to the exponent modulo
`q`, although only the lowest bits of it are scanned, as many as `q` has: up to `q` no exponent
loses a bit.  A product is the one of the words modulo `p`, so neither order nor grouping of the
factors matters.  If the `q`-th power of the base is one modulo `p`, the exponent need not be
reduced, sums and products of exponents make products and powers of powers, and powers to opposite
exponents cancel. -/
theorem pow_prod_exact (G : SchnorrGroup) :
    (∀ (b : Element) (e : Scalar),
      (G.pow b e).toNat = b.toNat ^ (e.toNat % G.q.toNat) % G.p.toNat) ∧
    (∀ b n : Nat, Modular.pow G.p.toNat G.qBits b n = b ^ (n % 2 ^ G.qBits) % G.p.toNat ∧
      (n ≤ G.q.toNat → Modular.pow G.p.toNat G.qBits b n = b ^ n % G.p.toNat)) ∧
    (∀ xs : List Element, (G.prod xs).toNat = (xs.map fun x => x.toNat).prod % G.p.toNat) ∧
    (∀ xs ys : List Element, xs.Perm ys → G.prod xs = G.prod ys) ∧
    (∀ xs ys : List Element, G.prod (xs ++ ys) = G.prod [G.prod xs, G.prod ys]) ∧
    ∀ b : Element, b.toNat ^ G.q.toNat ≡ 1 [MOD G.p.toNat] → ∀ d e : Scalar,
      (G.pow b e).toNat = b.toNat ^ e.toNat % G.p.toNat ∧
      G.pow b (G.add d e) = G.prod [G.pow b d, G.pow b e] ∧
      G.pow (G.pow b d) e = G.pow b (G.mul d e) ∧
      G.prod [G.pow b e, G.pow b (G.neg e)] = 1 := by
  refine ⟨toNat_pow, fun b n => ⟨Modular.pow_eq _ _ b n, modularPow_of_le_q b⟩, fun xs => ?_,
    fun _ _ => prod_perm, prod_append, fun b h d e => ?_⟩
  · rw [toNat_prod, natProd_eq_prod]
  · have hb := modEq_one_iff.1 h
    exact ⟨toNat_pow_of_root hb e, SchnorrGroup.pow_add hb d e, SchnorrGroup.pow_mul hb d e,
      prod_pow_neg hb e⟩

/-- The base 41 is 18 modulo 23, of order 11, and neither the exponent 20 nor 16 is below 11. -/
theorem pow_prod_exact_small :
    let b : Element := ⟨⟨41, Word.lt_limit_of_lt (by decide)⟩⟩
    let d : Scalar := ⟨⟨20, Word.lt_limit_of_lt (by decide)⟩⟩
    let e : Scalar := ⟨⟨16, Word.lt_limit_of_lt (by decide)⟩⟩
    Modular.pow 23 small.qBits 41 11 = 41 ^ 11 % 23 ∧
      small.prod [b, small.generator, b] = small.prod [small.generator, b, b] ∧
      (small.pow b e).toNat = 41 ^ 16 % 23 ∧
      small.pow b (small.add d e) = small.prod [small.pow b d, small.pow b e] ∧
      small.pow (small.pow b d) e = small.pow b (small.mul d e) ∧
      small.prod [small.pow b e, small.pow b (small.neg e)] = 1 := by
  intro b d e
  obtain ⟨-, hscan, -, hperm, -, hroot⟩ := pow_prod_exact small
  exact ⟨(hscan 41 11).2 (by decide), hperm _ _ (.swap _ _ _), hroot b (by decide) d e⟩

end SchnorrGroup

end BallotProof
