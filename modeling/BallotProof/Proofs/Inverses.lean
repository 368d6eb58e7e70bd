import BallotProof.SchnorrGroup.Arithmetic
import Mathlib.Data.Nat.ModEq

/-!
# Inverses modulo `p`

The modulus need not be prime and the word need not be reduced, so an inverse may be missing.

* `SchnorrGroup.inverse?_eq_some_iff` : **what is found is the reduced inverse**, and it is found
  if there is one.
* `SchnorrGroup.inverse?_eq_none_iff`, `SchnorrGroup.isSome_inverse?_iff` : nothing is found exactly
  if there is no inverse, and there is one exactly for words prime to the modulus.
* `SchnorrGroup.inverse?_congr` : only the class of the word counts.
* `SchnorrGroup.inverse?_inverse?`, `SchnorrGroup.inverse?_prod_pair` : inverses of inverses and of
  products.
* `SchnorrGroup.inverse?_exact` : **inversion is exact**, on all words.
* `Modular.mul_modEq_iff` : a factor that has an inverse can be taken to the other side.
-/

namespace BallotProof

theorem Modular.mul_modEq_iff {m x y k l : Nat} (hxy : x * y ≡ 1 [MOD m]) :
    k * x ≡ l [MOD m] ↔ k ≡ l * y [MOD m] := by
  constructor
  · intro h
    calc k = k * 1 := (Nat.mul_one k).symm
      _ ≡ k * (x * y) [MOD m] := (hxy.mul_left k).symm
      _ = k * x * y := (Nat.mul_assoc ..).symm
      _ ≡ l * y [MOD m] := h.mul_right y
  · intro h
    calc k * x ≡ l * y * x [MOD m] := h.mul_right x
      _ = l * (x * y) := by rw [Nat.mul_assoc, Nat.mul_comm y]
      _ ≡ l * 1 [MOD m] := hxy.mul_left l
      _ = l := Nat.mul_one l

namespace SchnorrGroup

variable {G : SchnorrGroup} {x y z : Element}

theorem modEq_one_iff {n : Nat} : n ≡ 1 [MOD G.p.toNat] ↔ n % G.p.toNat = 1 := by
  rw [Nat.ModEq, Nat.mod_eq_of_lt G.one_lt_p]

/-! ### What is found -/

/-- **What is found is the reduced inverse.** -/
theorem inverse?_eq_some_iff :
    G.inverse? x = some y ↔
      y.toNat < G.p.toNat ∧ x.toNat * y.toNat ≡ 1 [MOD G.p.toNat] := by
  -- whatever number the search finds for `x` has both properties
  have hfound : ∀ {n}, Modular.inverse? G.p.toNat x.toNat = some n →
      n < G.p.toNat ∧ x.toNat * n ≡ 1 [MOD G.p.toNat] := by
    intro n hn
    obtain ⟨hlt, hmul⟩ := Modular.mul_inverse? G.one_lt_p hn
    rw [Nat.mul_comm] at hmul
    exact ⟨hlt, modEq_one_iff.2 hmul⟩
  constructor
  · intro h
    obtain ⟨n, hn, rfl⟩ := Option.map_eq_some_iff.1 h
    obtain ⟨hlt, hmul⟩ := hfound hn
    rw [toNat_toElement, Nat.mod_eq_of_lt hlt]
    exact ⟨hlt, hmul⟩
  · rintro ⟨hlt, hmul⟩
    have hcoprime : x.toNat.Coprime G.p.toNat := Nat.coprime_of_mul_modEq_one _ hmul
    obtain ⟨n, hn⟩ := Option.isSome_iff_exists.1 ((Modular.inverse?_isSome_iff _ _).2 hcoprime)
    obtain ⟨hnlt, hnmul⟩ := hfound hn
    have hcongr : n ≡ y.toNat [MOD G.p.toNat] :=
      Nat.ModEq.cancel_left_of_coprime hcoprime.symm (hnmul.trans hmul.symm)
    have heq : n = y.toNat := hcongr.eq_of_lt_of_lt hnlt hlt
    rw [inverse?, hn, Option.map_some, heq]
    exact congrArg some (Element.ext (Nat.mod_eq_of_lt hlt))

theorem inverse?_of_mul_modEq_one {n : Nat} (h : x.toNat * n ≡ 1 [MOD G.p.toNat]) :
    G.inverse? x = some (G.toElement n) := by
  refine inverse?_eq_some_iff.2 ⟨Nat.mod_lt _ G.p_pos, ?_⟩
  exact ((Nat.mod_modEq n _).mul_left _).trans h

theorem inverse?_eq_none_iff :
    G.inverse? x = none ↔ ¬ ∃ n, x.toNat * n ≡ 1 [MOD G.p.toNat] := by
  rw [← not_iff_not, not_not, ← ne_eq, Option.ne_none_iff_exists']
  constructor
  · rintro ⟨y, hy⟩
    exact ⟨y.toNat, (inverse?_eq_some_iff.1 hy).2⟩
  · rintro ⟨n, hn⟩
    exact ⟨G.toElement n, inverse?_of_mul_modEq_one hn⟩

theorem isSome_inverse?_iff : (G.inverse? x).isSome = true ↔ Nat.gcd x.toNat G.p.toNat = 1 := by
  rw [inverse?, Option.isSome_map, Modular.inverse?_isSome_iff]

theorem inverse?_congr (h : x.toNat ≡ y.toNat [MOD G.p.toNat]) : G.inverse? x = G.inverse? y := by
  rw [inverse?, inverse?, Modular.inverse?, Modular.inverse?, h]

/-! ### Laws of inverses -/

theorem inverse?_unique (h : G.inverse? x = some y) {n : Nat} :
    (1 ≤ n ∧ n < G.p.toNat ∧ x.toNat * n ≡ 1 [MOD G.p.toNat]) ↔ n = y.toNat := by
  obtain ⟨hlt, hmul⟩ := inverse?_eq_some_iff.1 h
  refine ⟨fun ⟨_, hn, hnmul⟩ => ?_, ?_⟩
  · have hfound : G.toElement n = y :=
      Option.some.inj ((inverse?_of_mul_modEq_one hnmul).symm.trans h)
    rw [← hfound, toNat_toElement, Nat.mod_eq_of_lt hn]
  · rintro rfl
    refine ⟨Nat.one_le_iff_ne_zero.2 fun hzero => ?_, hlt, hmul⟩
    -- zero times a number does not leave the remainder one
    rw [hzero, Nat.mul_zero, modEq_one_iff, Nat.zero_mod] at hmul
    exact Nat.zero_ne_one hmul

theorem prod_inverse? (h : G.inverse? x = some y) : G.prod [x, y] = 1 := by
  apply Element.ext
  rw [toNat_prod_pair, toNat_one]
  exact modEq_one_iff.1 (inverse?_eq_some_iff.1 h).2

theorem inverse?_inverse? (h : G.inverse? x = some y) :
    G.inverse? y = some (G.toElement x.toNat) := by
  apply inverse?_of_mul_modEq_one
  rw [Nat.mul_comm]
  exact (inverse?_eq_some_iff.1 h).2

theorem inverse?_prod_pair {x' z' : Element} (hx : G.inverse? x = some x')
    (hz : G.inverse? z = some z') : G.inverse? (G.prod [x, z]) = some (G.prod [x', z']) := by
  have hprod : ∀ a b : Element, (G.prod [a, b]).toNat ≡ a.toNat * b.toNat [MOD G.p.toNat] := by
    intro a b
    rw [toNat_prod_pair]
    exact Nat.mod_modEq _ _
  refine inverse?_eq_some_iff.2 ⟨toNat_prod_lt _, ?_⟩
  calc (G.prod [x, z]).toNat * (G.prod [x', z']).toNat
      ≡ x.toNat * z.toNat * (x'.toNat * z'.toNat) [MOD G.p.toNat] := (hprod x z).mul (hprod x' z')
    _ = x.toNat * x'.toNat * (z.toNat * z'.toNat) := Nat.mul_mul_mul_comm ..
    _ ≡ 1 * 1 [MOD G.p.toNat] := (inverse?_eq_some_iff.1 hx).2.mul (inverse?_eq_some_iff.1 hz).2

/-- **Inversion is exact.**  For any word, reduced or not, and a modulus that need not be prime, an
inverse is found if and only if the word is prime to the modulus.  It is the only number from one to
below the modulus whose product with the word is one modulo `p`, the two multiply to one, and its
own inverse is the word, reduced.  The inverse of a product of two such words is the product of
their inverses. -/
theorem inverse?_exact (G : SchnorrGroup) :
    (∀ x : Element, (G.inverse? x).isSome = true ↔ Nat.gcd x.toNat G.p.toNat = 1) ∧
    (∀ x : Element, Nat.gcd x.toNat G.p.toNat = 1 → ∃ y, G.inverse? x = some y ∧
      (∀ n : Nat, (1 ≤ n ∧ n < G.p.toNat ∧ x.toNat * n ≡ 1 [MOD G.p.toNat]) ↔ n = y.toNat) ∧
      G.prod [x, y] = 1 ∧ G.inverse? y = some (G.toElement x.toNat)) ∧
    ∀ x z : Element, Nat.gcd x.toNat G.p.toNat = 1 → Nat.gcd z.toNat G.p.toNat = 1 →
      ∃ x' z', G.inverse? x = some x' ∧ G.inverse? z = some z' ∧
        G.inverse? (G.prod [x, z]) = some (G.prod [x', z']) := by
  have hexists : ∀ x : Element, Nat.gcd x.toNat G.p.toNat = 1 → ∃ y, G.inverse? x = some y :=
    fun _ hx => Option.isSome_iff_exists.1 (isSome_inverse?_iff.2 hx)
  refine ⟨fun _ => isSome_inverse?_iff, fun x hx => ?_, fun x z hx hz => ?_⟩
  · obtain ⟨y, hy⟩ := hexists x hx
    exact ⟨y, hy, fun _ => inverse?_unique hy, prod_inverse? hy, inverse?_inverse? hy⟩
  · obtain ⟨x', hx'⟩ := hexists x hx
    obtain ⟨z', hz'⟩ := hexists z hz
    exact ⟨x', z', hx', hz', inverse?_prod_pair hx' hz'⟩

/-- The powers of 9 modulo 91: a group of the order 3 whose modulus is not prime. -/
def composite : SchnorrGroup where
  p := ⟨91, Word.lt_limit_of_lt (by decide)⟩
  q := ⟨3, Word.lt_limit_of_lt (by decide)⟩
  g := ⟨9, Word.lt_limit_of_lt (by decide)⟩
  p_odd := rfl
  q_odd := rfl
  one_lt_q := by decide
  q_lt_p := by decide
  q_dvd := rfl
  one_lt_g := by decide
  g_lt_p := by decide
  g_pow_q := by decide

/-- Modulo 91 = 7 · 13 neither 0 nor 7 nor 91 has an inverse; those of 93, which is not reduced, and
of 9 are found, and so is that of their product. -/
theorem inverse?_exact_composite :
    let x : Element := ⟨⟨93, Word.lt_limit_of_lt (by decide)⟩⟩
    let z : Element := composite.generator
    let others : List Element := [composite.toElement 0, composite.toElement 7,
      ⟨⟨91, Word.lt_limit_of_lt (by decide)⟩⟩]
    (∀ y ∈ others, ¬ (composite.inverse? y).isSome = true) ∧
      (∃ y, composite.inverse? x = some y ∧ 46 = y.toNat ∧ composite.prod [x, y] = 1 ∧
        composite.inverse? y = some (composite.toElement x.toNat)) ∧
      ∃ x' z', composite.inverse? x = some x' ∧ composite.inverse? z = some z' ∧
        composite.inverse? (composite.prod [x, z]) = some (composite.prod [x', z']) := by
  intro x z others
  obtain ⟨hiff, hinverse, hprod⟩ := inverse?_exact composite
  have hothers : ∀ y ∈ others, Nat.gcd y.toNat composite.p.toNat ≠ 1 := by decide
  obtain ⟨y, hy, hunique, hmul, hback⟩ := hinverse x (by decide)
  exact ⟨fun y hy h => hothers y hy ((hiff y).1 h),
    ⟨y, hy, (hunique 46).1 (by decide), hmul, hback⟩, hprod x z (by decide) (by decide)⟩

end SchnorrGroup

end BallotProof
