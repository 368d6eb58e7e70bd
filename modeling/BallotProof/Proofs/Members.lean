import BallotProof.KeyPair
import BallotProof.Proofs.Inverses
import Mathlib.Algebra.Field.ZMod
import Mathlib.Algebra.Module.ZMod
import Mathlib.RingTheory.RootsOfUnity.Basic
import Mathlib.Tactic.Module

/-!
# The members of a group as a module

The elements that pass the membership test are the `q`-th roots of unity modulo `p`.  They form a
commutative group, here written additively, in which `q` times a member is zero.  So exponents
modulo `q` act on members, and an equation between products of powers becomes a linear one.

* `SchnorrGroup.Members` is the module over `ZMod q`, `SchnorrGroup.base` the generator in it and
  `SchnorrGroup.element` the reduced element of a member.
* `SchnorrGroup.isMember_iff_exists` : **the membership test accepts exactly the elements of
  members**, whether or not `p` and `q` are prime.
* `SchnorrGroup.pow_element`, `prod_map_element`, `inverse?_element` : powers, products and inverses
  of elements of members are multiples, sums and opposites of members.
* `SchnorrGroup.exponent` is the residue class of a scalar, and `exponent_add`, `exponent_mul`, ...
  say that the operations on scalars are those of `ZMod q`.
* `SchnorrGroup.smul_base_inj`, `smul_left_inj_of_ne_zero` : for prime `q` the multiples of the
  generator are all different, and so are the members after multiplication by an exponent that is
  not zero.
* `SchnorrGroup.value_mul_eq_iff` : a member can be taken to the other side of an equation modulo
  `p` whose other factor is any word.
-/

namespace BallotProof

namespace SchnorrGroup

variable (G : SchnorrGroup)

instance : NeZero G.p.toNat := ⟨Nat.ne_of_gt G.p_pos⟩

instance : NeZero G.q.toNat := ⟨Nat.ne_of_gt G.q_pos⟩

instance : Fact (1 < G.p.toNat) := ⟨G.one_lt_p⟩

instance : Fact (1 < G.q.toNat) := ⟨G.one_lt_q⟩

/-- The members of the group, written additively. -/
def Members : Type := Additive (rootsOfUnity G.q.toNat (ZMod G.p.toNat))

instance : AddCommGroup G.Members :=
  inferInstanceAs (AddCommGroup (Additive (rootsOfUnity G.q.toNat (ZMod G.p.toNat))))

/-- The class modulo `p` of a member. -/
def Members.value {G : SchnorrGroup} (a : G.Members) : ZMod G.p.toNat :=
  ((Additive.toMul a : rootsOfUnity G.q.toNat (ZMod G.p.toNat)) : (ZMod G.p.toNat)ˣ)

/-- The reduced element of a member. -/
def element (a : G.Members) : Element := G.toElement a.value.val

theorem cast_eq_one_iff {n : Nat} : (n : ZMod G.p.toNat) = 1 ↔ n % G.p.toNat = 1 := by
  rw [← Nat.cast_one, ZMod.natCast_eq_natCast_iff', Nat.mod_eq_of_lt G.one_lt_p]

/-- The member with the class of `x`. -/
def member (x : Nat) (h : x ^ G.q.toNat % G.p.toNat = 1) : G.Members :=
  Additive.ofMul <| rootsOfUnity.mkOfPowEq (x : ZMod G.p.toNat) <| by
    rw [← Nat.cast_pow, cast_eq_one_iff, h]

/-- The generator as a member. -/
def base : G.Members := G.member G.g.toNat G.g_pow_q

/-- The residue class of a scalar. -/
def exponent (s : Scalar) : ZMod G.q.toNat := s.toNat

variable {G}

/-! ### Members modulo `p` -/

@[simp] theorem value_zero : (0 : G.Members).value = 1 := rfl

theorem value_add (a b : G.Members) : (a + b).value = a.value * b.value := rfl

theorem value_nsmul (n : Nat) (a : G.Members) : (n • a).value = a.value ^ n :=
  rfl

theorem value_pow_q (a : G.Members) : a.value ^ G.q.toNat = 1 :=
  (mem_rootsOfUnity' _ _).1 (Additive.toMul a).2

theorem value_injective {a b : G.Members} (h : a.value = b.value) : a = b :=
  Additive.toMul.injective (rootsOfUnity.coe_injective h)

@[simp] theorem value_member {x : Nat} (h : x ^ G.q.toNat % G.p.toNat = 1) :
    (G.member x h).value = x := rfl

/-- Exponents modulo `q` act on members. -/
instance : Module (ZMod G.q.toNat) G.Members :=
  AddCommGroup.zmodModule fun a => value_injective (value_pow_q a)

theorem value_smul (c : ZMod G.q.toNat) (a : G.Members) : (c • a).value = a.value ^ c.val := by
  rw [← value_nsmul, ← Nat.cast_smul_eq_nsmul (ZMod G.q.toNat), ZMod.natCast_zmod_val]

theorem value_pow_mod (n : Nat) (a : G.Members) :
    a.value ^ (n % G.q.toNat) = ((n : ZMod G.q.toNat) • a).value := by
  rw [value_smul, ZMod.val_natCast]

theorem isUnit_value (a : G.Members) : IsUnit a.value := Units.isUnit _

/-- A member can be taken to the other side of an equation modulo `p`. -/
theorem value_mul_eq_iff {a b : G.Members} {k : ZMod G.p.toNat} :
    a.value * k = b.value ↔ k = (b - a).value := by
  rw [← (isUnit_value a).mul_right_inj (b := k), ← value_add, add_comm a, sub_add_cancel]

/-- For a prime order, an exponent that is not zero can be taken away. -/
theorem smul_left_inj_of_ne_zero (hq : G.q.toNat.Prime) {c : ZMod G.q.toNat} (hc : c ≠ 0)
    {a b : G.Members} : c • a = c • b ↔ a = b := by
  have := Fact.mk hq
  exact (isUnit_iff_ne_zero.2 hc).smul_left_cancel

/-! ### Elements of members -/

theorem toNat_element (a : G.Members) : (G.element a).toNat = a.value.val := by
  rw [element, toNat_toElement, Nat.mod_eq_of_lt (ZMod.val_lt _)]

theorem toNat_element_lt (a : G.Members) : (G.element a).toNat < G.p.toNat := by
  rw [toNat_element]
  exact ZMod.val_lt _

@[simp] theorem cast_toNat_element (a : G.Members) :
    ((G.element a).toNat : ZMod G.p.toNat) = a.value := by
  rw [toNat_element, ZMod.natCast_zmod_val]

theorem toElement_eq_element {n : Nat} {a : G.Members} (h : (n : ZMod G.p.toNat) = a.value) :
    G.toElement n = G.element a := by
  rw [element, toElement_eq_iff, ← ZMod.natCast_eq_natCast_iff', h, ZMod.natCast_zmod_val]

theorem element_injective : Function.Injective G.element := by
  intro a b h
  apply value_injective
  rw [← cast_toNat_element, ← cast_toNat_element, h]

@[simp] theorem element_inj {a b : G.Members} : G.element a = G.element b ↔ a = b :=
  element_injective.eq_iff

theorem eq_element {x : Element} {a : G.Members} (hlt : x.toNat < G.p.toNat)
    (h : (x.toNat : ZMod G.p.toNat) = a.value) : x = G.element a := by
  apply Element.ext
  rw [toNat_element, ← h, ZMod.val_natCast, Nat.mod_eq_of_lt hlt]

/-- **The membership test accepts exactly the elements of members.** -/
theorem isMember_iff_exists {x : Element} : G.isMember x = true ↔ ∃ a, x = G.element a := by
  rw [isMember_iff]
  constructor
  · rintro ⟨-, hlt, hpow⟩
    exact ⟨G.member x.toNat hpow, eq_element hlt (value_member hpow).symm⟩
  · rintro ⟨a, rfl⟩
    have hpow : (G.element a).toNat ^ G.q.toNat % G.p.toNat = 1 := by
      rw [← cast_eq_one_iff, Nat.cast_pow, cast_toNat_element, value_pow_q]
    refine ⟨Nat.pos_of_ne_zero fun h => ?_, toNat_element_lt a, hpow⟩
    rw [h, Nat.zero_pow G.q_pos, Nat.zero_mod] at hpow
    exact Nat.zero_ne_one hpow

@[simp] theorem isMember_element (a : G.Members) : G.isMember (G.element a) = true :=
  isMember_iff_exists.2 ⟨a, rfl⟩

@[simp] theorem generator_eq : G.generator = G.element G.base :=
  eq_element G.g_lt_p (value_member G.g_pow_q).symm

theorem one_eq : (1 : Element) = G.element 0 := by
  apply eq_element
  · rw [toNat_one]
    exact G.one_lt_p
  · rw [toNat_one, value_zero, Nat.cast_one]

/-! ### Scalars -/

@[simp] theorem exponent_toScalar (n : Nat) : G.exponent (G.toScalar n) = n := by
  rw [exponent, toNat_toScalar, ZMod.natCast_mod]

@[simp] theorem exponent_toScalar_val (a : ZMod G.q.toNat) : G.exponent (G.toScalar a.val) = a := by
  rw [exponent_toScalar, ZMod.natCast_zmod_val]

@[simp] theorem exponent_add (a b : Scalar) :
    G.exponent (G.add a b) = G.exponent a + G.exponent b := by
  rw [add_eq_toScalar, exponent_toScalar, Nat.cast_add]
  rfl

theorem cast_q_sub_mod (n : Nat) :
    ((G.q.toNat - n % G.q.toNat : Nat) : ZMod G.q.toNat) = -n := by
  rw [Nat.cast_sub (Nat.mod_lt _ G.q_pos).le, ZMod.natCast_self, ZMod.natCast_mod, zero_sub]

@[simp] theorem exponent_sub (a b : Scalar) :
    G.exponent (G.sub a b) = G.exponent a - G.exponent b := by
  rw [sub_eq_toScalar, exponent_toScalar, Nat.cast_add, cast_q_sub_mod, ← sub_eq_add_neg]
  rfl

@[simp] theorem exponent_neg (a : Scalar) : G.exponent (G.neg a) = -G.exponent a := by
  rw [neg_eq_toScalar, exponent_toScalar, cast_q_sub_mod]
  rfl

@[simp] theorem exponent_mul (a b : Scalar) :
    G.exponent (G.mul a b) = G.exponent a * G.exponent b := by
  rw [mul_eq_toScalar, exponent_toScalar, Nat.cast_mul]
  rfl

@[simp] theorem exponent_addMul (a b c : Scalar) :
    G.exponent (G.addMul a b c) = G.exponent a + G.exponent b * G.exponent c := by
  rw [addMul_eq_toScalar, exponent_toScalar, Nat.cast_add, Nat.cast_mul]
  rfl

theorem exponent_foldl_add (rs : List Scalar) (r₀ : Scalar) :
    G.exponent (rs.foldl G.add r₀) = G.exponent r₀ + (rs.map G.exponent).sum := by
  induction rs generalizing r₀ with
  | nil => simp
  | cons r rs ih => rw [List.foldl_cons, ih, exponent_add, List.map_cons, List.sum_cons, add_assoc]

theorem toNat_zero : (0 : Scalar).toNat = 0 :=
  Word.toNat_zero

@[simp] theorem exponent_zero : G.exponent 0 = 0 := by
  rw [exponent, toNat_zero, Nat.cast_zero]

theorem toNat_scalar_one : (1 : Scalar).toNat = 1 :=
  Word.toNat_one

@[simp] theorem exponent_one : G.exponent 1 = 1 := by
  rw [exponent, toNat_scalar_one, Nat.cast_one]

theorem exponent_eq_iff {a b : Scalar} :
    G.exponent a = G.exponent b ↔ a.toNat % G.q.toNat = b.toNat % G.q.toNat :=
  ZMod.natCast_eq_natCast_iff' ..

theorem scalar_ext {a b : Scalar} (ha : a.toNat < G.q.toNat) (hb : b.toNat < G.q.toNat)
    (h : G.exponent a = G.exponent b) : a = b := by
  rw [exponent_eq_iff, Nat.mod_eq_of_lt ha, Nat.mod_eq_of_lt hb] at h
  exact Scalar.ext h

theorem exponent_ne_zero {a : Scalar} (ha : a.toNat < G.q.toNat) (h : a.toNat ≠ 0) :
    G.exponent a ≠ 0 := by
  intro hzero
  exact h (Nat.eq_zero_of_dvd_of_lt ((ZMod.natCast_eq_zero_iff _ _).1 hzero) ha)

theorem exponent_eq_zero_iff {a : Scalar} (ha : a.toNat < G.q.toNat) :
    G.exponent a = 0 ↔ a.toNat = 0 := by
  constructor
  · intro h
    by_contra hne
    exact exponent_ne_zero ha hne h
  · intro h
    rw [exponent, h, Nat.cast_zero]

theorem cast_toNat_of_nonneg {m : Int} (h : 0 ≤ m) :
    ((m.toNat : Nat) : ZMod G.q.toNat) = (m : ZMod G.q.toNat) := by
  rw [← Int.cast_natCast, Int.toNat_of_nonneg h]

theorem toNat_eq_mod_iff {a : Scalar} {n : Nat} :
    a.toNat = n % G.q.toNat ↔ a.toNat < G.q.toNat ∧ G.exponent a = n := by
  rw [exponent, ZMod.natCast_eq_natCast_iff']
  constructor
  · intro h
    rw [h, Nat.mod_mod]
    exact ⟨Nat.mod_lt _ G.q_pos, rfl⟩
  · rintro ⟨hlt, h⟩
    rw [← h, Nat.mod_eq_of_lt hlt]

/-- What was taken away from a reduced scalar can be added again, on either side. -/
theorem add_sub_of_lt {a b : Scalar} (ha : a.toNat < G.q.toNat) :
    G.add (G.sub a b) b = a ∧ G.add b (G.sub a b) = a := by
  constructor
  · refine scalar_ext (add_lt ..) ha ?_
    rw [exponent_add, exponent_sub, sub_add_cancel]
  · refine scalar_ext (add_lt ..) ha ?_
    rw [exponent_add, exponent_sub, add_comm, sub_add_cancel]

/-! ### Operations on elements of members -/

@[simp] theorem pow_element (a : G.Members) (e : Scalar) :
    G.pow (G.element a) e = G.element (G.exponent e • a) := by
  apply eq_element
  · exact toNat_pow_lt _ _
  · rw [toNat_pow, ZMod.natCast_mod, Nat.cast_pow, cast_toNat_element, value_smul, exponent,
      ZMod.val_natCast]

@[simp] theorem generatorPow_eq (e : Scalar) :
    G.generatorPow e = G.element (G.exponent e • G.base) := by
  rw [generatorPow, generator_eq, pow_element]

theorem prod_map_element (as : List G.Members) :
    G.prod (as.map G.element) = G.element as.sum := by
  have hcast : (natProd (as.map G.element) : ZMod G.p.toNat) = as.sum.value := by
    induction as with
    | nil => simp [natProd]
    | cons a as ih =>
      rw [List.map_cons, natProd, Nat.cast_mul, ih, cast_toNat_element, List.sum_cons, value_add]
  apply eq_element
  · rw [toNat_prod]
    exact Nat.mod_lt _ G.p_pos
  · rw [toNat_prod, ZMod.natCast_mod, hcast]

@[simp] theorem prod_element_pair (a b : G.Members) :
    G.prod [G.element a, G.element b] = G.element (a + b) := by
  simpa using prod_map_element [a, b]

@[simp] theorem prod_element_triple (a b c : G.Members) :
    G.prod [G.element a, G.element b, G.element c] = G.element (a + b + c) := by
  simpa [add_assoc] using prod_map_element [a, b, c]

/-- Members are invertible, and the inverse that is found is the opposite. -/
theorem inverse?_element (a : G.Members) :
    G.inverse? (G.element a) = some (G.element (-a)) := by
  refine inverse?_eq_some_iff.2 ⟨toNat_element_lt _, ?_⟩
  rw [← ZMod.natCast_eq_natCast_iff, Nat.cast_mul, cast_toNat_element, cast_toNat_element,
    ← value_add, add_neg_cancel, value_zero, Nat.cast_one]

/-! ### The generator -/

theorem base_ne_zero : G.base ≠ 0 := by
  intro h
  have hg : G.generator.toNat = (1 : Element).toNat := by rw [generator_eq, h, one_eq]
  rw [toNat_generator, toNat_one] at hg
  exact Nat.ne_of_gt G.one_lt_g hg

theorem toElement_g_pow_mul_pow (m n : Nat) (a : G.Members) :
    G.toElement (G.g.toNat ^ m * (G.element a).toNat ^ n) =
      G.element ((m : ZMod G.q.toNat) • G.base + (n : ZMod G.q.toNat) • a) := by
  apply toElement_eq_element
  rw [Nat.cast_mul, Nat.cast_pow, Nat.cast_pow, cast_toNat_element, value_add,
    Nat.cast_smul_eq_nsmul, Nat.cast_smul_eq_nsmul, value_nsmul, value_nsmul]
  rfl

theorem toElement_g_pow (n : Nat) :
    G.toElement (G.g.toNat ^ n) = G.element ((n : ZMod G.q.toNat) • G.base) := by
  have h := toElement_g_pow_mul_pow n 0 (0 : G.Members)
  rwa [Nat.pow_zero, Nat.mul_one, smul_zero, add_zero] at h

theorem toElement_pow (n : Nat) (a : G.Members) :
    G.toElement ((G.element a).toNat ^ n) = G.element ((n : ZMod G.q.toNat) • a) := by
  have h := toElement_g_pow_mul_pow 0 n a
  rwa [Nat.pow_zero, Nat.one_mul, Nat.cast_zero, zero_smul, zero_add] at h

theorem smul_base_inj (hq : G.q.toNat.Prime) {c d : ZMod G.q.toNat} :
    c • G.base = d • G.base ↔ c = d := by
  have := Fact.mk hq
  constructor
  · intro h
    have hzero : (c - d) • G.base = 0 := by rw [sub_smul, h, sub_self]
    by_contra hne
    have hunit : IsUnit (c - d) := isUnit_iff_ne_zero.2 (sub_ne_zero.2 hne)
    exact base_ne_zero (hunit.smul_eq_zero.1 hzero)
  · rintro rfl
    rfl

/-! ### A group to compute in -/

/-- The squares modulo 23: a group of the prime order 11, generated by 4. -/
def small : SchnorrGroup where
  p := ⟨23, Word.lt_limit_of_lt (by decide)⟩
  q := ⟨11, Word.lt_limit_of_lt (by decide)⟩
  g := ⟨4, Word.lt_limit_of_lt (by decide)⟩
  p_odd := rfl
  q_odd := rfl
  one_lt_q := by decide
  q_lt_p := by decide
  q_dvd := rfl
  one_lt_g := by decide
  g_lt_p := by decide
  g_pow_q := by decide

theorem small_q_prime : small.q.toNat.Prime := by
  decide +kernel

/-- The key pair of the secret 3. -/
def smallKeys : KeyPair := ⟨small.toScalar 3, small.generatorPow (small.toScalar 3)⟩

theorem publicKey_small : smallKeys.publicKey = small.generatorPow (small.toScalar 3) := by
  rw [smallKeys]

theorem ofSecret_small : KeyPair.ofSecret small (small.toScalar 3) = .ok smallKeys :=
  KeyPair.ofSecret_eq_ok_iff.2 ⟨by decide, by decide, rfl⟩

end SchnorrGroup

end BallotProof
