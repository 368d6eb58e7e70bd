import BallotProof.Modular
import BallotProof.Word.Carry

/-!
# Residues in Montgomery form

A residue modulo an odd word `m` is held as the word below `m` that is congruent to it times
`2 ^ 4096`. Sums and differences are those of the words. The product of two such words has a factor
`2 ^ 4096` too many, which is taken away without a division: a multiple of `m` is added that makes
the low word zero, and the high word with its carry is what remains.

* `OddModulus.two_pow_dvd_liftNegInverse` : the multiplier that makes the low word zero is found bit
  by bit, in steps that double the number of bits that are right.
* `OddModulus.reduceWide_mul_limit` : the reduction of two words divides by `2 ^ 4096`, modulo `m`.
* `Residue.Represents` relates a residue to the numbers that it stands for; `represents_ofWord`,
  `Represents.add`, `Represents.mul`, ... say that the operations are those on numbers of any size.
* `Residue.Represents.toNat_toWord` : leaving the form gives the number reduced modulo `m`.
-/

namespace BallotProof

open Word (limit limit_pos one_lt_limit)

/-- A modulus with the opposite of its inverse modulo `2 ^ 4096`. -/
structure OddModulus where
  /-- The modulus. -/
  toWord : Word
  /-- The opposite of the inverse. -/
  negInverse : Word
  negInverse_mul : (toWord.toNat * negInverse.toNat + 1) % Word.limit = 0

namespace OddModulus

/-! ### The opposite of the inverse -/

/-- How often two has to be squared to get `2 ^ 4096`. -/
def squarings : Nat := 12

theorem limit_eq : limit = 2 ^ (2 ^ squarings : Nat) := by
  have hbits : 8 * Word.width = 2 ^ squarings := by decide
  rw [Word.limit_eq_two_pow, hbits]

theorem two_pow_two_pow_succ (n : Nat) :
    2 ^ (2 ^ (n + 1) : Nat) = 2 ^ (2 ^ n : Nat) * 2 ^ (2 ^ n : Nat) := by
  rw [Nat.pow_succ, Nat.mul_two, Nat.pow_add]

/-- The opposite of the inverse of an odd word, right in its lowest `2 ^ steps` bits. -/
def liftNegInverse (m : Word) : Nat → Word
  | 0 => 1
  | steps + 1 =>
    let y := liftNegInverse m steps
    y * (2 + m * y)

/-- One step doubles the number of bits that are right: what is wrong is squared. -/
theorem dvd_step {d : Nat} {m y : Word} (hd : d * d ∣ limit) (h : d ∣ m.toNat * y.toNat + 1) :
    d * d ∣ m.toNat * (y * (2 + m * y)).toNat + 1 := by
  have hword : (y * (2 + m * y)).toNat % (d * d) =
      y.toNat * (2 + m.toNat * y.toNat) % (d * d) := by
    have htwo : (2 : Word).toNat = 2 := Word.toNat_ofNat_of_lt (Word.lt_limit_of_lt (by decide))
    rw [Word.toNat_mul, Word.toNat_add, Word.toNat_mul, htwo, Nat.mod_mod_of_dvd _ hd, Nat.mul_mod,
      Nat.mod_mod_of_dvd _ hd, Nat.add_mod, Nat.mod_mod_of_dvd _ hd, ← Nat.add_mod, ← Nat.mul_mod]
  have hsquare : m.toNat * (y.toNat * (2 + m.toNat * y.toNat)) + 1 =
      (m.toNat * y.toNat + 1) * (m.toNat * y.toNat + 1) := by grind
  apply Nat.dvd_of_mod_eq_zero
  rw [Nat.add_mod, Nat.mul_mod, hword, ← Nat.mul_mod, ← Nat.add_mod, hsquare]
  exact Nat.mod_eq_zero_of_dvd (Nat.mul_dvd_mul h h)

theorem two_pow_dvd_liftNegInverse {m : Word} (hodd : m.toNat % 2 = 1) {steps : Nat}
    (h : steps ≤ squarings) :
    2 ^ (2 ^ steps : Nat) ∣ m.toNat * (liftNegInverse m steps).toNat + 1 := by
  induction steps with
  | zero =>
    rw [liftNegInverse, Word.toNat_one, Nat.mul_one]
    exact Nat.dvd_of_mod_eq_zero (by omega)
  | succ steps ih =>
    rw [two_pow_two_pow_succ]
    refine dvd_step ?_ (ih (by omega))
    rw [← two_pow_two_pow_succ, limit_eq]
    exact Nat.pow_dvd_pow 2 (Nat.pow_le_pow_right Nat.two_pos h)

/-- An odd word as a modulus. -/
def ofOdd (m : Word) (hodd : m.toNat % 2 = 1) : OddModulus where
  toWord := m
  negInverse := liftNegInverse m squarings
  negInverse_mul := by
    rw [limit_eq]
    exact Nat.mod_eq_zero_of_dvd (two_pow_dvd_liftNegInverse hodd (Nat.le_refl _))

variable (M : OddModulus)

theorem toNat_pos : 0 < M.toWord.toNat := by
  refine Nat.pos_of_ne_zero fun hzero => ?_
  have h := M.negInverse_mul
  rw [hzero, Nat.zero_mul, Nat.zero_add, Nat.mod_eq_of_lt one_lt_limit] at h
  exact Nat.one_ne_zero h

variable {M} in
/-- A factor `2 ^ 4096` can be taken away on both sides. -/
theorem mod_eq_of_mul_limit {a b : Nat}
    (h : a * limit % M.toWord.toNat = b * limit % M.toWord.toNat) :
    a % M.toWord.toNat = b % M.toWord.toNat := by
  obtain ⟨inverse, hinverse⟩ := Nat.dvd_of_mod_eq_zero M.negInverse_mul
  have hcancel (n : Nat) : n * limit * inverse % M.toWord.toNat = n % M.toWord.toNat := by
    rw [Nat.mul_assoc, ← hinverse, Nat.mul_add, Nat.mul_one, Nat.mul_left_comm, Nat.mul_add_mod]
  rw [← hcancel a, ← hcancel b, Nat.mul_mod, h, ← Nat.mul_mod]

/-! ### Reduction -/

/-- The multiple of the modulus that makes the low word zero when it is added, in two words. -/
def multiple (low : Word) : Word × Word :=
  (low * M.negInverse).mulWide M.toWord

/-- The high word, with its carry, of the sum of two words and the multiple. -/
def addMultiple (low high : Word) : Word × Bool :=
  let (_, carry) := low.addCarry (M.multiple low).1 false
  high.addCarry (M.multiple low).2 carry

/-- Two words, the low one first, divided by `2 ^ 4096` modulo the modulus. -/
def reduceWide (low high : Word) : Word :=
  let (sum, carry) := M.addMultiple low high
  Word.reduceSum M.toWord sum carry

variable {low high : Word}

theorem toNat_multiple (low : Word) :
    (M.multiple low).1.toNat + (M.multiple low).2.toNat * limit =
      (low * M.negInverse).toNat * M.toWord.toNat :=
  Word.toNat_mulWide ..

theorem low_add_multiple_mod (low : Word) :
    (low.toNat + (M.multiple low).1.toNat) % limit = 0 := by
  calc (low.toNat + (M.multiple low).1.toNat) % limit
      = (low.toNat + (low * M.negInverse).toNat * M.toWord.toNat) % limit := by
        rw [← toNat_multiple, ← Nat.add_assoc, Nat.add_mul_mod_self_right]
    _ = (low.toNat + low.toNat * M.negInverse.toNat * M.toWord.toNat) % limit := by
        rw [Word.toNat_mul, Nat.add_mod, Nat.mod_mul_mod, ← Nat.add_mod]
    _ = low.toNat * (M.toWord.toNat * M.negInverse.toNat + 1) % limit := by
        rw [Nat.mul_add, Nat.mul_one, Nat.mul_assoc, Nat.mul_comm M.negInverse.toNat, Nat.add_comm]
    _ = 0 := by rw [Nat.mul_mod, M.negInverse_mul, Nat.mul_zero, Nat.zero_mod]

/-- The low word of the sum is zero, so that its carry is all that is left of it. -/
theorem carry_low_add_multiple (low : Word) :
    (low.addCarry (M.multiple low).1 false).2.toNat * limit =
      low.toNat + (M.multiple low).1.toNat := by
  have hsum := Word.toNat_addCarry low (M.multiple low).1 false
  rw [Bool.toNat_false, Nat.add_zero] at hsum
  have hzero := M.low_add_multiple_mod low
  rw [← hsum, Nat.add_mul_mod_self_right, Nat.mod_eq_of_lt (Word.toNat_lt _)] at hzero
  rw [← hsum, hzero, Nat.zero_add]

/-- The high word with its carry holds the whole sum. -/
theorem addMultiple_mul_limit (low high : Word) :
    ((M.addMultiple low high).1.toNat + (M.addMultiple low high).2.toNat * limit) * limit =
      low.toNat + high.toNat * limit + (low * M.negInverse).toNat * M.toWord.toNat := by
  have hlow := M.carry_low_add_multiple low
  have hmultiple := M.toNat_multiple low
  rw [addMultiple, Word.toNat_addCarry, Nat.add_mul, Nat.add_mul, hlow, ← hmultiple]
  omega

variable {M}

/-- The high word with its carry needs at most one subtraction. -/
theorem addMultiple_lt (h : high.toNat < M.toWord.toNat) :
    (M.addMultiple low high).1.toNat + (M.addMultiple low high).2.toNat * limit <
      2 * M.toWord.toNat := by
  have hlow : low.toNat + high.toNat * limit < M.toWord.toNat * limit := by
    calc low.toNat + high.toNat * limit < limit + high.toNat * limit :=
          Nat.add_lt_add_right low.toNat_lt _
      _ = (high.toNat + 1) * limit := by rw [Nat.add_mul, Nat.one_mul, Nat.add_comm]
      _ ≤ M.toWord.toNat * limit := Nat.mul_le_mul_right _ h
  have hmultiple : (low * M.negInverse).toNat * M.toWord.toNat ≤ M.toWord.toNat * limit := by
    rw [Nat.mul_comm]
    exact Nat.mul_le_mul_left _ (Nat.le_of_lt (Word.toNat_lt _))
  refine Nat.lt_of_mul_lt_mul_right (a := limit) ?_
  rw [addMultiple_mul_limit, Nat.mul_assoc]
  omega

theorem toNat_reduceWide (h : high.toNat < M.toWord.toNat) :
    (M.reduceWide low high).toNat =
      ((M.addMultiple low high).1.toNat + (M.addMultiple low high).2.toNat * limit) %
        M.toWord.toNat :=
  Word.toNat_reduceSum (addMultiple_lt h)

theorem reduceWide_lt (h : high.toNat < M.toWord.toNat) :
    (M.reduceWide low high).toNat < M.toWord.toNat := by
  rw [toNat_reduceWide h]
  exact Nat.mod_lt _ M.toNat_pos

/-- **The reduction of two words divides by `2 ^ 4096`**, modulo the modulus. -/
theorem reduceWide_mul_limit (h : high.toNat < M.toWord.toNat) :
    (M.reduceWide low high).toNat * limit % M.toWord.toNat =
      (low.toNat + high.toNat * limit) % M.toWord.toNat := by
  rw [toNat_reduceWide h, Nat.mod_mul_mod, addMultiple_mul_limit, Nat.add_mul_mod_self_right]

end OddModulus

/-! ### Residues -/

open OddModulus

/-- A residue, held as the reduced word that is congruent to it times `2 ^ 4096`. -/
structure Residue (M : OddModulus) where
  /-- The word that is held. -/
  form : Word
  form_lt : form.toNat < M.toWord.toNat

namespace Residue

variable {M : OddModulus} {r s : Residue M} {a b : Nat}

/-- The product of a word with one below the modulus, divided by `2 ^ 4096`. -/
def ofProduct (x y : Word) (h : y.toNat < M.toWord.toNat) : Residue M where
  form := M.reduceWide (x.mulWide y).1 (x.mulWide y).2
  form_lt := reduceWide_lt (Word.toNat_mulWide_high_lt h)

/-- The word of a residue, reduced. -/
def toWord (r : Residue M) : Word :=
  M.reduceWide r.form 0

theorem zero_lt (M : OddModulus) : (0 : Word).toNat < M.toWord.toNat := by
  rw [Word.toNat_zero]
  exact M.toNat_pos

instance : Zero (Residue M) where
  zero := ⟨0, zero_lt M⟩

/-- The form of one is `2 ^ 4096` reduced, and so is the opposite of the modulus. -/
instance : One (Residue M) where
  one := ⟨(0 - M.toWord) % M.toWord, by rw [Word.toNat_mod]; exact Nat.mod_lt _ M.toNat_pos⟩

instance : Add (Residue M) where
  add r s := ⟨Word.addMod M.toWord r.form s.form, by
    rw [Word.toNat_addMod r.form_lt s.form_lt]; exact Nat.mod_lt _ M.toNat_pos⟩

instance : Sub (Residue M) where
  sub r s := ⟨Word.subMod M.toWord r.form s.form, by
    rw [Word.toNat_subMod r.form_lt s.form_lt]; exact Nat.mod_lt _ M.toNat_pos⟩

instance : Neg (Residue M) where
  neg r := 0 - r

instance : Mul (Residue M) where
  mul r s := ofProduct r.form s.form s.form_lt

/-! ### What residues stand for -/

/-- The residue stands for the number. -/
def Represents (r : Residue M) (n : Nat) : Prop :=
  r.form.toNat = n * limit % M.toWord.toNat

/-- A form can be found with one factor `2 ^ 4096` more on both sides. -/
theorem represents_of_mul_limit
    (h : r.form.toNat * limit % M.toWord.toNat = a * limit * limit % M.toWord.toNat) :
    r.Represents a := by
  rw [Represents, ← mod_eq_of_mul_limit h, Nat.mod_eq_of_lt r.form_lt]

/-- A product is divided by `2 ^ 4096`. -/
theorem ofProduct_mul_limit {x y : Word} (h : y.toNat < M.toWord.toNat) :
    (ofProduct x y h : Residue M).form.toNat * limit % M.toWord.toNat =
      x.toNat * y.toNat % M.toWord.toNat := by
  rw [← Word.toNat_mulWide]
  exact reduceWide_mul_limit (Word.toNat_mulWide_high_lt h)

theorem represents_zero : (0 : Residue M).Represents 0 := by
  have hform : (0 : Residue M).form.toNat = 0 := Word.toNat_zero
  rw [Represents, hform, Nat.zero_mul, Nat.zero_mod]

theorem represents_one : (1 : Residue M).Represents 1 := by
  have hform : (1 : Residue M).form.toNat = (0 - M.toWord).toNat % M.toWord.toNat :=
    Word.toNat_mod ..
  have hle := Nat.le_of_lt M.toWord.toNat_lt
  have hopposite : (0 - M.toWord).toNat = limit - M.toWord.toNat := by
    rw [Word.toNat_sub, Word.toNat_zero, Nat.zero_add]
    exact Nat.mod_eq_of_lt (Nat.sub_lt limit_pos M.toNat_pos)
  rw [Represents, hform, hopposite, Nat.one_mul, ← Nat.mod_eq_sub_mod hle]

theorem Represents.add (hr : r.Represents a) (hs : s.Represents b) :
    (r + s).Represents (a + b) := by
  calc (r + s).form.toNat = (r.form.toNat + s.form.toNat) % M.toWord.toNat :=
        Word.toNat_addMod r.form_lt s.form_lt
    _ = (a + b) * limit % M.toWord.toNat := by rw [hr, hs, ← Nat.add_mod, Nat.add_mul]

theorem Represents.sub (hr : r.Represents a) (hs : s.Represents b) (hb : b ≤ M.toWord.toNat) :
    (r - s).Represents (a + (M.toWord.toNat - b)) := by
  have hform : (r - s).form.toNat =
      (r.form.toNat + (M.toWord.toNat - s.form.toNat)) % M.toWord.toNat :=
    Word.toNat_subMod r.form_lt s.form_lt
  have hkept : r.form.toNat + (M.toWord.toNat - s.form.toNat) + s.form.toNat =
      r.form.toNat + M.toWord.toNat := by
    have := s.form_lt
    omega
  have hnumber : (a + (M.toWord.toNat - b)) * limit + b * limit =
      a * limit + limit * M.toWord.toNat := by
    rw [← Nat.add_mul, Nat.add_assoc, Nat.sub_add_cancel hb, Nat.add_mul, Nat.mul_comm limit]
  rw [Represents, hform]
  -- with the form of `s` added, both sides are the form of `r`
  refine Modular.mod_eq_of_add_mod_eq (c := s.form.toNat) ?_
  rw [hkept, Nat.add_mod_right, hs, Nat.add_mod_mod, hnumber, Nat.add_mul_mod_self_right, hr,
    Nat.mod_mod]

theorem Represents.neg (hr : r.Represents a) (ha : a ≤ M.toWord.toNat) :
    (-r).Represents (M.toWord.toNat - a) := by
  have hsub := represents_zero.sub hr ha
  rwa [Nat.zero_add] at hsub

theorem Represents.mul (hr : r.Represents a) (hs : s.Represents b) :
    (r * s).Represents (a * b) := by
  refine represents_of_mul_limit ?_
  calc (r * s).form.toNat * limit % M.toWord.toNat
      = r.form.toNat * s.form.toNat % M.toWord.toNat := ofProduct_mul_limit _
    _ = a * limit * (b * limit) % M.toWord.toNat := by rw [hr, hs, ← Nat.mul_mod]
    _ = a * b * limit * limit % M.toWord.toNat := by grind

theorem toNat_toWord_lt (r : Residue M) : r.toWord.toNat < M.toWord.toNat :=
  reduceWide_lt (zero_lt M)

/-- A residue stands for its own word. -/
theorem represents_toWord (r : Residue M) : r.Represents r.toWord.toNat := by
  have hform : r.toWord.toNat * limit % M.toWord.toNat =
      (r.form.toNat + (0 : Word).toNat * limit) % M.toWord.toNat :=
    reduceWide_mul_limit (zero_lt M)
  rw [Word.toNat_zero, Nat.zero_mul, Nat.add_zero, Nat.mod_eq_of_lt r.form_lt] at hform
  exact hform.symm

/-- Leaving the form gives the number reduced. -/
theorem Represents.toNat_toWord (hr : r.Represents a) :
    r.toWord.toNat = a % M.toWord.toNat := by
  have hword := mod_eq_of_mul_limit (r.represents_toWord.symm.trans hr)
  rwa [Nat.mod_eq_of_lt r.toNat_toWord_lt] at hword

/-! ### The residue of a word -/

/-- The residue squared `count` times. -/
def squared (r : Residue M) : Nat → Residue M
  | 0 => r
  | count + 1 =>
    let s := squared r count
    s * s

theorem Represents.squared (hr : r.Represents a) (count : Nat) :
    (r.squared count).Represents (a ^ (2 ^ count : Nat)) := by
  induction count with
  | zero => simpa [Residue.squared] using hr
  | succ count ih =>
    rw [Nat.pow_succ, Nat.mul_two, Nat.pow_add]
    exact ih.mul ih

end Residue

/-- A modulus with the residue of `2 ^ 4096`. -/
structure MontgomeryModulus extends OddModulus where
  /-- The residue of `2 ^ 4096`. -/
  radix : Residue toOddModulus
  represents_radix : radix.Represents Word.limit

namespace MontgomeryModulus

/-- An odd word as a modulus. Two is squared to get the residue of `2 ^ 4096`. -/
def ofOdd (m : Word) (hodd : m.toNat % 2 = 1) : MontgomeryModulus where
  toOddModulus := .ofOdd m hodd
  radix := (1 + 1 : Residue (.ofOdd m hodd)).squared squarings
  represents_radix := by
    have htwo : (1 + 1 : Residue (.ofOdd m hodd)).Represents 2 :=
      Residue.represents_one.add Residue.represents_one
    rw [OddModulus.limit_eq]
    exact htwo.squared squarings

end MontgomeryModulus

namespace Residue

/-- The residue of a word. -/
def ofWord (M : MontgomeryModulus) (w : Word) : Residue M.toOddModulus :=
  ofProduct w M.radix.form M.radix.form_lt

theorem represents_ofWord (M : MontgomeryModulus) (w : Word) :
    (ofWord M w).Represents w.toNat := by
  refine represents_of_mul_limit ?_
  rw [ofWord, ofProduct_mul_limit, M.represents_radix, Nat.mul_mod_mod, Nat.mul_assoc]

end Residue

end BallotProof
