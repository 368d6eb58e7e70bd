import BallotProof.Residue.Arithmetic
import BallotProof.SchnorrGroup.Basic

/-!
# Arithmetic in a Schnorr group

Elements are computed modulo `p` and scalars modulo `q`. Every operation takes any words, reduced
or not, and answers a reduced one. Scalars are computed with residues, on words that wrap at
`2 ^ 4096`.

* `SchnorrGroup.toNat_pow` : a power is the power to the reduced exponent, modulo `p`; by
  `SchnorrGroup.modularPow_of_le_q` no bit of it is lost.
* `SchnorrGroup.toNat_prod` : a product is the product modulo `p`, so that neither order nor
  grouping of the factors matters (`SchnorrGroup.prod_perm`, `SchnorrGroup.prod_append`).
* `SchnorrGroup.toNat_add`, `toNat_mul`, `toNat_addMul`, ... : operations on scalars are exact
  modulo `q`, whatever wraps on the way.
* `SchnorrGroup.isMember_iff` : membership is `0 < x < p` and `x ^ q = 1` modulo `p`.
-/

namespace BallotProof

namespace SchnorrGroup

variable (G : SchnorrGroup)

/-! ### Reduction -/

/-- The number modulo `p` as an element. -/
def toElement (n : Nat) : Element :=
  ⟨⟨n % G.p.toNat, Nat.lt_trans (Nat.mod_lt n G.p_pos) G.p.toNat_lt⟩⟩

/-- The number modulo `q` as a scalar. -/
def toScalar (n : Nat) : Scalar :=
  ⟨⟨n % G.q.toNat, Nat.lt_trans (Nat.mod_lt n G.q_pos) G.q.toNat_lt⟩⟩

/-- The arithmetic of words modulo `q`. -/
def scalars : ResidueArithmetic G.q :=
  .montgomery (.ofOdd G.q G.q_odd)

/-- The word modulo `q`. -/
def reduce (w : Word) : Scalar :=
  ⟨G.scalars.reduce w⟩

/-- The number that the last 512 bytes encode, modulo `q`. -/
def scalarOfBytes (bs : Bytes) : Scalar :=
  G.reduce (Word.ofBytes bs)

/-- The scalar is reduced. -/
def isReduced (x : Scalar) : Bool :=
  x.toNat < G.q.toNat

/-- A signed integer as a scalar, if it is neither negative nor as large as `q`. -/
def scalarOfInt? (n : Int64) : Option Scalar :=
  if n.toInt < 0 then none
  else
    let s := Scalar.ofNat n.toInt.toNat
    if G.isReduced s then some s else none

/-! ### Elements -/

/-- The power of an element to the exponent modulo `q`; only as many bits as `q` has are
scanned. -/
def pow (base : Element) (exp : Scalar) : Element :=
  G.toElement (Modular.pow G.p.toNat G.qBits base.toNat (G.reduce exp.toWord).toNat)

/-- The power of the generator. -/
def generatorPow (exp : Scalar) : Element :=
  G.pow G.generator exp

/-- The product of elements; one if there is none. -/
def prod (xs : List Element) : Element :=
  G.toElement (xs.foldl (fun acc x => acc * x.toNat % G.p.toNat) (1 % G.p.toNat))

/-- The inverse modulo `p`, if there is one. -/
def inverse? (x : Element) : Option Element :=
  (Modular.inverse? G.p.toNat x.toNat).map G.toElement

/-- The word is reduced, is not zero and belongs to the subgroup of order `q`. -/
def isMember (x : Element) : Bool :=
  x.toNat ≠ 0 && x.toNat < G.p.toNat
    && Modular.pow G.p.toNat G.qBits x.toNat G.q.toNat = 1

/-! ### Scalars -/

/-- The sum modulo `q`. -/
def add (a b : Scalar) : Scalar :=
  ⟨G.scalars.sum a.toWord b.toWord⟩

/-- The difference modulo `q`. -/
def sub (a b : Scalar) : Scalar :=
  ⟨G.scalars.difference a.toWord b.toWord⟩

/-- The opposite modulo `q`. -/
def neg (a : Scalar) : Scalar :=
  ⟨G.scalars.opposite a.toWord⟩

/-- The product modulo `q`. -/
def mul (a b : Scalar) : Scalar :=
  ⟨G.scalars.product a.toWord b.toWord⟩

/-- The sum of `a` and the product of `b` and `c`, modulo `q`. -/
def addMul (a b c : Scalar) : Scalar :=
  ⟨G.scalars.sumProduct a.toWord b.toWord c.toWord⟩

variable {G}

/-! ### What the operations compute -/

theorem toNat_one : (1 : Element).toNat = 1 :=
  Word.toNat_one

@[simp] theorem toNat_generator : G.generator.toNat = G.g.toNat := rfl

@[simp] theorem toNat_toElement (n : Nat) : (G.toElement n).toNat = n % G.p.toNat := rfl

@[simp] theorem toNat_toScalar (n : Nat) : (G.toScalar n).toNat = n % G.q.toNat := rfl

theorem toElement_eq_iff {m n : Nat} :
    G.toElement m = G.toElement n ↔ m % G.p.toNat = n % G.p.toNat :=
  Element.eq_iff

theorem toScalar_eq_iff {m n : Nat} :
    G.toScalar m = G.toScalar n ↔ m % G.q.toNat = n % G.q.toNat :=
  Scalar.eq_iff

@[simp] theorem toNat_reduce (w : Word) : (G.reduce w).toNat = w.toNat % G.q.toNat :=
  G.scalars.toNat_reduce w

theorem reduce_eq_toScalar (w : Word) : G.reduce w = G.toScalar w.toNat :=
  Scalar.ext (toNat_reduce w)

theorem toScalar_lt (n : Nat) : (G.toScalar n).toNat < G.q.toNat :=
  Nat.mod_lt _ G.q_pos

theorem reduce_lt (w : Word) : (G.reduce w).toNat < G.q.toNat := by
  rw [reduce_eq_toScalar]
  exact toScalar_lt _

theorem toNat_scalarOfBytes (bs : Bytes) :
    (G.scalarOfBytes bs).toNat = Bytes.toNat bs % Word.limit % G.q.toNat := by
  rw [scalarOfBytes, toNat_reduce, Word.toNat_ofBytes]

/-- No bit of an exponent up to `q` is lost. -/
theorem modularPow_of_le_q (b : Nat) {n : Nat} (hn : n ≤ G.q.toNat) :
    Modular.pow G.p.toNat G.qBits b n = b ^ n % G.p.toNat :=
  Modular.pow_of_lt (Nat.lt_of_le_of_lt hn G.q_lt_two_pow)

theorem toNat_pow (base : Element) (exp : Scalar) :
    (G.pow base exp).toNat = base.toNat ^ (exp.toNat % G.q.toNat) % G.p.toNat := by
  have hle : exp.toNat % G.q.toNat ≤ G.q.toNat := Nat.le_of_lt (Nat.mod_lt _ G.q_pos)
  rw [pow, toNat_toElement, toNat_reduce, modularPow_of_le_q _ hle, Nat.mod_mod]

theorem toNat_generatorPow (exp : Scalar) :
    (G.generatorPow exp).toNat = G.g.toNat ^ (exp.toNat % G.q.toNat) % G.p.toNat :=
  toNat_pow G.generator exp

theorem toNat_pow_lt (base : Element) (exp : Scalar) : (G.pow base exp).toNat < G.p.toNat := by
  rw [toNat_pow]
  exact Nat.mod_lt _ G.p_pos

/-- The product over the natural numbers. -/
def natProd : List Element → Nat
  | [] => 1
  | x :: xs => x.toNat * natProd xs

theorem foldl_mul_mod (m : Nat) (xs : List Element) (n : Nat) :
    xs.foldl (fun acc x => acc * x.toNat % m) n % m = n * natProd xs % m := by
  induction xs generalizing n with
  | nil => simp [natProd]
  | cons x xs ih => rw [List.foldl_cons, ih, Nat.mod_mul_mod, natProd, Nat.mul_assoc]

theorem toNat_prod (xs : List Element) : (G.prod xs).toNat = natProd xs % G.p.toNat := by
  rw [prod, toNat_toElement, foldl_mul_mod, Nat.mod_mul_mod, Nat.one_mul]

theorem toNat_prod_pair (x y : Element) :
    (G.prod [x, y]).toNat = x.toNat * y.toNat % G.p.toNat := by
  rw [toNat_prod, natProd, natProd, natProd, Nat.mul_one]

/-! ### Products of lists -/

theorem natProd_append (xs ys : List Element) : natProd (xs ++ ys) = natProd xs * natProd ys := by
  induction xs with
  | nil => rw [List.nil_append, natProd, Nat.one_mul]
  | cons x xs ih => rw [List.cons_append, natProd, natProd, ih, Nat.mul_assoc]

theorem natProd_perm {xs ys : List Element} (h : xs.Perm ys) : natProd xs = natProd ys := by
  induction h with
  | nil => rfl
  | cons x _ ih => rw [natProd, natProd, ih]
  | swap x y xs => simp only [natProd, Nat.mul_left_comm]
  | trans _ _ ih ih' => rw [ih, ih']

theorem toNat_prod_lt (xs : List Element) : (G.prod xs).toNat < G.p.toNat := by
  rw [toNat_prod]
  exact Nat.mod_lt _ G.p_pos

/-- The order of the factors does not matter. -/
theorem prod_perm {xs ys : List Element} (h : xs.Perm ys) : G.prod xs = G.prod ys := by
  apply Element.ext
  rw [toNat_prod, toNat_prod, natProd_perm h]

/-- A product can be taken in two parts. -/
theorem prod_append (xs ys : List Element) :
    G.prod (xs ++ ys) = G.prod [G.prod xs, G.prod ys] := by
  apply Element.ext
  rw [toNat_prod_pair, toNat_prod, toNat_prod, toNat_prod, natProd_append, ← Nat.mul_mod]

/-- A factor can be multiplied to the product of those before it. -/
theorem prod_concat (xs : List Element) (x : Element) :
    G.prod (xs ++ [x]) = G.prod [G.prod xs, x] := by
  apply Element.ext
  rw [toNat_prod_pair, toNat_prod, toNat_prod, natProd_append, natProd, natProd, Nat.mul_one,
    Nat.mod_mul_mod]

/-! ### Membership and scalars -/

theorem isMember_iff {x : Element} :
    G.isMember x = true ↔
      0 < x.toNat ∧ x.toNat < G.p.toNat ∧ x.toNat ^ G.q.toNat % G.p.toNat = 1 := by
  simp [isMember, modularPow_of_le_q, Nat.pos_iff_ne_zero, and_assoc]

theorem isReduced_iff {x : Scalar} : G.isReduced x = true ↔ x.toNat < G.q.toNat := by
  simp [isReduced]

theorem toNat_add (a b : Scalar) : (G.add a b).toNat = (a.toNat + b.toNat) % G.q.toNat :=
  G.scalars.toNat_sum a.toWord b.toWord

theorem toNat_sub (a b : Scalar) :
    ((G.sub a b).toNat : Int) = (a.toNat - b.toNat) % G.q.toNat :=
  G.scalars.toNat_difference a.toWord b.toWord

theorem toNat_neg (a : Scalar) : ((G.neg a).toNat : Int) = -a.toNat % G.q.toNat :=
  G.scalars.toNat_opposite a.toWord

theorem toNat_mul (a b : Scalar) : (G.mul a b).toNat = a.toNat * b.toNat % G.q.toNat :=
  G.scalars.toNat_product a.toWord b.toWord

theorem toNat_addMul (a b c : Scalar) :
    (G.addMul a b c).toNat = (a.toNat + b.toNat * c.toNat) % G.q.toNat :=
  G.scalars.toNat_sumProduct a.toWord b.toWord c.toWord

theorem add_eq_toScalar (a b : Scalar) : G.add a b = G.toScalar (a.toNat + b.toNat) :=
  Scalar.ext (toNat_add a b)

theorem sub_eq_toScalar (a b : Scalar) :
    G.sub a b = G.toScalar (a.toNat + (G.q.toNat - b.toNat % G.q.toNat)) := by
  apply Scalar.ext
  have hle := Nat.le_of_lt (Nat.mod_lt b.toNat G.q_pos)
  rw [← Int.natCast_inj, toNat_sub, toNat_toScalar, ResidueArithmetic.natCast_add_sub_mod _ hle,
    Int.natCast_emod, Int.sub_emod_emod]

theorem neg_eq_toScalar (a : Scalar) :
    G.neg a = G.toScalar (G.q.toNat - a.toNat % G.q.toNat) := by
  apply Scalar.ext
  have hle := Nat.le_of_lt (Nat.mod_lt a.toNat G.q_pos)
  have hsub := ResidueArithmetic.natCast_add_sub_mod 0 hle
  rw [Nat.zero_add, Int.natCast_emod a.toNat, Int.sub_emod_emod] at hsub
  rw [← Int.natCast_inj, toNat_neg, toNat_toScalar, hsub]
  exact congrArg (· % _) (Int.zero_sub _).symm

theorem mul_eq_toScalar (a b : Scalar) : G.mul a b = G.toScalar (a.toNat * b.toNat) :=
  Scalar.ext (toNat_mul a b)

theorem addMul_eq_toScalar (a b c : Scalar) :
    G.addMul a b c = G.toScalar (a.toNat + b.toNat * c.toNat) :=
  Scalar.ext (toNat_addMul a b c)

theorem add_lt (a b : Scalar) : (G.add a b).toNat < G.q.toNat := by
  rw [add_eq_toScalar]
  exact toScalar_lt _

theorem sub_lt (a b : Scalar) : (G.sub a b).toNat < G.q.toNat := by
  rw [sub_eq_toScalar]
  exact toScalar_lt _

theorem neg_lt (a : Scalar) : (G.neg a).toNat < G.q.toNat := by
  rw [neg_eq_toScalar]
  exact toScalar_lt _

theorem addMul_lt (a b c : Scalar) : (G.addMul a b c).toNat < G.q.toNat := by
  rw [addMul_eq_toScalar]
  exact toScalar_lt _

/-- A difference plus what was taken away is the reduced scalar. -/
theorem add_sub_cancel (a b : Scalar) : G.add (G.sub a b) b = G.reduce a.toWord := by
  apply Scalar.ext
  rw [← Int.natCast_inj, toNat_add, toNat_reduce, Int.natCast_emod, Int.natCast_add, toNat_sub,
    Int.emod_add_emod, Int.sub_add_cancel, Int.natCast_emod]

/-- An integer that is not negative is a word. -/
theorem toNat_ofNat_int (n : Int64) :
    (Scalar.ofNat n.toInt.toNat).toNat = n.toInt.toNat := by
  have := n.toInt_lt
  exact Word.toNat_ofNat_of_lt (Word.lt_limit_of_lt (by omega))

theorem scalarOfInt?_eq_some_iff {n : Int64} {s : Scalar} :
    G.scalarOfInt? n = some s ↔ n.toInt = s.toNat ∧ s.toNat < G.q.toNat := by
  have hn := toNat_ofNat_int n
  rw [scalarOfInt?]
  split
  · simp only [reduceCtorEq, false_iff]
    omega
  · simp only [isReduced_iff, hn, Option.ite_none_right_eq_some, Option.some.injEq, Scalar.eq_iff]
    omega

theorem isSome_scalarOfInt?_iff {n : Int64} :
    (G.scalarOfInt? n).isSome = true ↔ 0 ≤ n.toInt ∧ n.toInt < G.q.toNat := by
  rw [Option.isSome_iff_exists]
  simp only [scalarOfInt?_eq_some_iff]
  constructor
  · rintro ⟨s, hs⟩
    omega
  · intro h
    refine ⟨Scalar.ofNat n.toInt.toNat, ?_⟩
    rw [toNat_ofNat_int]
    omega

end SchnorrGroup

end BallotProof
