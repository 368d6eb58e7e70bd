import BallotProof.Residue.Basic

/-!
# Arithmetic of words modulo a word

Words are added, subtracted and multiplied modulo a word by taking their residues, computing with
these, and taking the word of the result. What is needed of residues is that each single operation
agrees with the one on integers; how they are held does not matter. In Montgomery form they do so
for every odd modulus.

* `ResidueArithmetic` are residues with the operations on them, one law for each operation.
* `ResidueArithmetic.toNat_sum`, `toNat_sumProduct`, ... : words, reduced or not, are computed with
  exactly.
* `ResidueArithmetic.montgomery` is the arithmetic in Montgomery form.
-/

namespace BallotProof

/-- Residues modulo a word. -/
structure ResidueArithmetic (m : Word) where
  /-- The residues. -/
  Carrier : Type
  /-- The residue of a word. -/
  ofWord : Word → Carrier
  /-- The word of a residue. -/
  toWord : Carrier → Word
  /-- The sum. -/
  add : Carrier → Carrier → Carrier
  /-- The difference. -/
  sub : Carrier → Carrier → Carrier
  /-- The opposite. -/
  neg : Carrier → Carrier
  /-- The product. -/
  mul : Carrier → Carrier → Carrier
  toNat_toWord_ofWord (w : Word) : (toWord (ofWord w)).toNat = w.toNat % m.toNat
  toNat_toWord_add (r s : Carrier) :
    (toWord (add r s)).toNat = ((toWord r).toNat + (toWord s).toNat) % m.toNat
  toNat_toWord_sub (r s : Carrier) :
    ((toWord (sub r s)).toNat : Int) = ((toWord r).toNat - (toWord s).toNat) % m.toNat
  toNat_toWord_neg (r : Carrier) : ((toWord (neg r)).toNat : Int) = -(toWord r).toNat % m.toNat
  toNat_toWord_mul (r s : Carrier) :
    (toWord (mul r s)).toNat = (toWord r).toNat * (toWord s).toNat % m.toNat

namespace ResidueArithmetic

variable {m : Word} (R : ResidueArithmetic m)

/-! ### Operations on words -/

/-- The word reduced. -/
def reduce (w : Word) : Word :=
  R.toWord (R.ofWord w)

/-- The sum of two words. -/
def sum (a b : Word) : Word :=
  R.toWord (R.add (R.ofWord a) (R.ofWord b))

/-- The difference of two words. -/
def difference (a b : Word) : Word :=
  R.toWord (R.sub (R.ofWord a) (R.ofWord b))

/-- The opposite of a word. -/
def opposite (a : Word) : Word :=
  R.toWord (R.neg (R.ofWord a))

/-- The product of two words. -/
def product (a b : Word) : Word :=
  R.toWord (R.mul (R.ofWord a) (R.ofWord b))

/-- The sum of `a` and the product of `b` and `c`. -/
def sumProduct (a b c : Word) : Word :=
  let product := R.mul (R.ofWord b) (R.ofWord c)
  R.toWord (R.add (R.ofWord a) product)

theorem toNat_reduce (w : Word) : (R.reduce w).toNat = w.toNat % m.toNat :=
  R.toNat_toWord_ofWord w

theorem toNat_sum (a b : Word) : (R.sum a b).toNat = (a.toNat + b.toNat) % m.toNat := by
  rw [sum, toNat_toWord_add, toNat_toWord_ofWord, toNat_toWord_ofWord, ← Nat.add_mod]

theorem toNat_difference (a b : Word) :
    ((R.difference a b).toNat : Int) = (a.toNat - b.toNat) % m.toNat := by
  rw [difference, toNat_toWord_sub, toNat_toWord_ofWord, toNat_toWord_ofWord, Int.natCast_emod,
    Int.natCast_emod, ← Int.sub_emod]

theorem toNat_opposite (a : Word) : ((R.opposite a).toNat : Int) = -a.toNat % m.toNat := by
  rw [opposite, toNat_toWord_neg, toNat_toWord_ofWord, Int.natCast_emod, ← Int.zero_sub,
    Int.sub_emod_emod, Int.zero_sub]

theorem toNat_product (a b : Word) : (R.product a b).toNat = a.toNat * b.toNat % m.toNat := by
  rw [product, toNat_toWord_mul, toNat_toWord_ofWord, toNat_toWord_ofWord, ← Nat.mul_mod]

theorem toNat_sumProduct (a b c : Word) :
    (R.sumProduct a b c).toNat = (a.toNat + b.toNat * c.toNat) % m.toNat := by
  rw [sumProduct, toNat_toWord_add, toNat_toWord_mul, toNat_toWord_ofWord, toNat_toWord_ofWord,
    toNat_toWord_ofWord, ← Nat.mul_mod, ← Nat.add_mod]

/-! ### Montgomery form -/

/-- What is taken away from the modulus and added is taken away, modulo the modulus. -/
theorem natCast_add_sub_mod (a : Nat) {b m : Nat} (h : b ≤ m) :
    (((a + (m - b)) % m : Nat) : Int) = (a - b) % m := by
  have hsum : ((a + (m - b) : Nat) : Int) = a - b + m := by omega
  rw [Int.natCast_emod, hsum, Int.add_emod_right]

/-- Residues in Montgomery form. -/
def montgomery (M : MontgomeryModulus) : ResidueArithmetic M.toWord where
  Carrier := Residue M.toOddModulus
  ofWord := Residue.ofWord M
  toWord := Residue.toWord
  add r s := r + s
  sub r s := r - s
  neg r := -r
  mul r s := r * s
  toNat_toWord_ofWord w := (Residue.represents_ofWord M w).toNat_toWord
  toNat_toWord_add r s := (r.represents_toWord.add s.represents_toWord).toNat_toWord
  toNat_toWord_sub r s := by
    have hle := Nat.le_of_lt s.toNat_toWord_lt
    rw [(r.represents_toWord.sub s.represents_toWord hle).toNat_toWord, natCast_add_sub_mod _ hle]
  toNat_toWord_neg r := by
    have hle := Nat.le_of_lt r.toNat_toWord_lt
    rw [(r.represents_toWord.neg hle).toNat_toWord, ← Int.zero_sub]
    simpa using natCast_add_sub_mod 0 hle
  toNat_toWord_mul r s := (r.represents_toWord.mul s.represents_toWord).toNat_toWord

end ResidueArithmetic

end BallotProof
