import BallotProof.Word

/-!
# Words with a carry

A sum of two words may need one more bit, a difference may need a borrow, and a product needs two
words. Here all three are computed with words that wrap at `2 ^ 4096`, together with the bit or the
word that is lost in wrapping. The product is put together from the four products of half words,
which are words.

* `Word.toNat_addCarry`, `Word.toNat_subBorrow`, `Word.toNat_mulWide` : nothing is lost that the
  carry, the borrow or the high word does not hold.
* `Word.toNat_reduceSum` : a number below twice the modulus, given by a word and a carry, is reduced
  by one subtraction.
* `Word.toNat_addMod`, `Word.toNat_subMod` : sums and differences of reduced words.
-/

namespace BallotProof

namespace Word

/-! ### Sums and differences -/

/-- The sum of two words and a carry, and the new carry. Either addition may wrap, which shows in a
sum that is less than its first summand. -/
def addCarry (a b : Word) (carry : Bool) : Word × Bool :=
  let sum := a + b
  let total := if carry then sum + 1 else sum
  (total, decide (sum.toNat < a.toNat) || decide (total.toNat < sum.toNat))

/-- The difference, and the borrow that it needs if more is taken away than there is. -/
def subBorrow (a b : Word) : Word × Bool :=
  (a - b, decide (a.toNat < b.toNat))

/-- A sum wraps exactly if it is less than its first summand. -/
theorem toNat_add_wraps (a b : Word) :
    (a + b).toNat + (decide ((a + b).toNat < a.toNat)).toNat * limit = a.toNat + b.toNat := by
  have ha := a.toNat_lt
  have hb := b.toNat_lt
  rw [toNat_add]
  by_cases h : a.toNat + b.toNat < limit
  · have hkept : ¬ a.toNat + b.toNat < a.toNat := by omega
    simp [Nat.mod_eq_of_lt h, hkept]
  · have hwrapped : (a.toNat + b.toNat) % limit = a.toNat + b.toNat - limit := by
      rw [Nat.mod_eq_sub_mod (Nat.not_lt.1 h), Nat.mod_eq_of_lt (by omega)]
    have hless : a.toNat + b.toNat - limit < a.toNat := by omega
    rw [hwrapped, decide_eq_true hless, Bool.toNat_true]
    omega

theorem toNat_addCarry (a b : Word) (carry : Bool) :
    (addCarry a b carry).1.toNat + (addCarry a b carry).2.toNat * limit =
      a.toNat + b.toNat + carry.toNat := by
  have ha := a.toNat_lt
  have hb := b.toNat_lt
  have hsum := toNat_add_wraps a b
  cases carry with
  | false => simpa [addCarry] using hsum
  | true =>
    have htotal := toNat_add_wraps (a + b) 1
    rw [toNat_one] at htotal
    simp only [addCarry, if_true]
    generalize decide ((a + b).toNat < a.toNat) = first at hsum ⊢
    generalize decide ((a + b + 1).toNat < (a + b).toNat) = second at htotal ⊢
    -- not both sums wrap: all that is added up is below twice the limit
    cases first <;> cases second <;>
      simp only [Bool.toNat_false, Bool.toNat_true, Bool.or_false, Bool.or_true] at * <;> omega

theorem toNat_subBorrow (a b : Word) :
    (subBorrow a b).1.toNat + b.toNat = a.toNat + (subBorrow a b).2.toNat * limit := by
  have ha := a.toNat_lt
  have hb := b.toNat_lt
  by_cases h : a.toNat < b.toNat
  · have hwrapped : (a - b).toNat = a.toNat + (limit - b.toNat) := by
      rw [toNat_sub, Nat.mod_eq_of_lt (by omega)]
    simp only [subBorrow, hwrapped, decide_eq_true h, Bool.toNat_true]
    omega
  · simp only [subBorrow, toNat_sub_of_le (Nat.not_lt.1 h), decide_eq_false h, Bool.toNat_false]
    omega

/-! ### Half words -/

/-- The number of half words. -/
@[irreducible] def half : Nat := 256 ^ (width / 2)

theorem half_mul_half : half * half = limit := by
  unfold half
  rw [limit_eq, ← Nat.pow_add]
  exact congrArg (256 ^ ·) (by decide)

theorem half_pos : 0 < half := by
  unfold half
  exact Nat.pow_pos (by decide)

/-- The lower 2048 bits. -/
def lowHalf (w : Word) : Word := ofNat (w.toNat % half)

/-- The upper 2048 bits. -/
def highHalf (w : Word) : Word := ofNat (w.toNat / half)

/-- The lower 2048 bits in the place of the upper ones. -/
def shiftHalf (w : Word) : Word := ofNat (w.toNat * half)

theorem half_lt_limit : half < limit := by
  have hpos := limit_pos
  have hlt := one_lt_limit
  rw [← half_mul_half] at hpos hlt ⊢
  rcases Nat.lt_or_ge 1 half with h | h
  · exact Nat.lt_mul_self_iff.2 h
  · exact absurd (Nat.mul_le_mul h h) (Nat.not_le.2 hlt)

theorem toNat_lowHalf (w : Word) : w.lowHalf.toNat = w.toNat % half :=
  toNat_ofNat_of_lt (Nat.lt_trans (Nat.mod_lt _ half_pos) half_lt_limit)

theorem toNat_highHalf (w : Word) : w.highHalf.toNat = w.toNat / half :=
  toNat_ofNat_of_lt (Nat.lt_of_le_of_lt (Nat.div_le_self ..) w.toNat_lt)

theorem lowHalf_lt (w : Word) : w.lowHalf.toNat < half := by
  rw [toNat_lowHalf]
  exact Nat.mod_lt _ half_pos

theorem highHalf_lt (w : Word) : w.highHalf.toNat < half := by
  rw [toNat_highHalf]
  exact Nat.div_lt_of_lt_mul (half_mul_half ▸ w.toNat_lt)

theorem toNat_halves (w : Word) : w.lowHalf.toNat + w.highHalf.toNat * half = w.toNat := by
  rw [toNat_lowHalf, toNat_highHalf, Nat.mul_comm]
  exact Nat.mod_add_div ..

theorem toNat_shiftHalf (w : Word) : w.shiftHalf.toNat = w.lowHalf.toNat * half := by
  rw [shiftHalf, toNat_ofNat, toNat_lowHalf, ← half_mul_half, Nat.mul_mod_mul_right]

/-- A product of half words is a word. -/
theorem toNat_mul_of_lt_half {a b : Word} (ha : a.toNat < half) (hb : b.toNat < half) :
    (a * b).toNat = a.toNat * b.toNat := by
  rw [toNat_mul, Nat.mod_eq_of_lt]
  rw [← half_mul_half]
  exact Nat.mul_lt_mul'' ha hb

/-! ### Products -/

/-- The product in two words, the low one first. Of the two cross products, the lower half belongs
to the low word, and the upper half and the carry to the high one. -/
def mulWide (a b : Word) : Word × Word :=
  let (cross, carry) := addCarry (a.lowHalf * b.highHalf) (a.highHalf * b.lowHalf) false
  let (low, lowCarry) := addCarry (a.lowHalf * b.lowHalf) cross.shiftHalf false
  let (high, _) := addCarry (a.highHalf * b.highHalf) cross.highHalf lowCarry
  (low, if carry then high + ofNat half else high)

/-- Multiplication by halves, with digits to the base `half` and two carries. -/
theorem mul_by_halves {base a₀ a₁ b₀ b₁ cross₀ cross₁ carry low lowCarry high : Nat}
    (hcross : cross₀ + cross₁ * base + carry * (base * base) = a₀ * b₁ + a₁ * b₀)
    (hlow : low + lowCarry * (base * base) = a₀ * b₀ + cross₀ * base)
    (hhigh : high = a₁ * b₁ + cross₁ + lowCarry) :
    (a₀ + a₁ * base) * (b₀ + b₁ * base) = low + (high + carry * base) * (base * base) := by
  have hsum : (a₀ + a₁ * base) * (b₀ + b₁ * base) =
      a₀ * b₀ + (a₀ * b₁ + a₁ * b₀) * base + a₁ * b₁ * (base * base) := by grind
  rw [hsum, ← hcross, hhigh]
  grind

/-- The number that the two words of a product stand for, before the high word wraps. -/
theorem mul_eq_add_mul_limit (a b : Word) :
    ∃ high, (mulWide a b).2.toNat = high % limit ∧
      a.toNat * b.toNat = (mulWide a b).1.toNat + high * limit := by
  have hll := toNat_mul_of_lt_half a.lowHalf_lt b.lowHalf_lt
  have hlh := toNat_mul_of_lt_half a.lowHalf_lt b.highHalf_lt
  have hhl := toNat_mul_of_lt_half a.highHalf_lt b.lowHalf_lt
  have hhh := toNat_mul_of_lt_half a.highHalf_lt b.highHalf_lt
  have hcross := toNat_addCarry (a.lowHalf * b.highHalf) (a.highHalf * b.lowHalf) false
  simp only [mulWide]
  generalize addCarry (a.lowHalf * b.highHalf) (a.highHalf * b.lowHalf) false = cross at hcross ⊢
  obtain ⟨cross, carry⟩ := cross
  have hlow := toNat_addCarry (a.lowHalf * b.lowHalf) cross.shiftHalf false
  generalize addCarry (a.lowHalf * b.lowHalf) cross.shiftHalf false = low at hlow ⊢
  obtain ⟨low, lowCarry⟩ := low
  have hhigh := toNat_addCarry (a.highHalf * b.highHalf) cross.highHalf lowCarry
  generalize addCarry (a.highHalf * b.highHalf) cross.highHalf lowCarry = high at hhigh ⊢
  obtain ⟨high, highCarry⟩ := high
  refine ⟨high.toNat + highCarry.toNat * limit + carry.toNat * half, ?_, ?_⟩
  · rw [Nat.add_right_comm, Nat.add_mul_mod_self_right]
    cases carry with
    | false => simp [Nat.mod_eq_of_lt high.toNat_lt]
    | true => simp [toNat_add, Nat.mod_eq_of_lt half_lt_limit]
  · rw [Bool.toNat_false, Nat.add_zero, hlh, hhl, ← cross.toNat_halves] at hcross
    rw [Bool.toNat_false, Nat.add_zero, hll, cross.toNat_shiftHalf] at hlow
    rw [hhh] at hhigh
    rw [← half_mul_half] at hcross hlow hhigh ⊢
    rw [← a.toNat_halves, ← b.toNat_halves]
    exact mul_by_halves hcross hlow hhigh

theorem toNat_mulWide (a b : Word) :
    (mulWide a b).1.toNat + (mulWide a b).2.toNat * limit = a.toNat * b.toNat := by
  obtain ⟨high, hhigh, hsum⟩ := mul_eq_add_mul_limit a b
  have hlt : high < limit := by
    refine Nat.lt_of_mul_lt_mul_right (a := limit) ?_
    have := Nat.mul_lt_mul'' a.toNat_lt b.toNat_lt
    omega
  rw [hsum, hhigh, Nat.mod_eq_of_lt hlt]

/-- The high word of a product with a word below `m` is below `m`. -/
theorem toNat_mulWide_high_lt {a b : Word} {m : Nat} (h : b.toNat < m) :
    (mulWide a b).2.toNat < m := by
  refine Nat.lt_of_mul_lt_mul_right (a := limit) ?_
  have hlt := Nat.mul_lt_mul'' a.toNat_lt h
  have := toNat_mulWide a b
  rw [Nat.mul_comm limit] at hlt
  omega

/-! ### Reduced words -/

variable {m : Word}

/-- The number that a word and a carry stand for, less the modulus; this is added again if more was
taken away than word and carry together. -/
def reduceSum (m w : Word) (carry : Bool) : Word :=
  let (difference, borrow) := w.subBorrow m
  if borrow && !carry then difference + m else difference

/-- The sum of two words below the modulus. -/
def addMod (m a b : Word) : Word :=
  let (sum, carry) := a.addCarry b false
  reduceSum m sum carry

/-- The difference of two words below the modulus. -/
def subMod (m a b : Word) : Word :=
  let (difference, borrow) := a.subBorrow b
  if borrow then difference + m else difference

/-- A number below twice the modulus is reduced by one subtraction. -/
theorem toNat_reduceSum {w : Word} {carry : Bool}
    (h : w.toNat + carry.toNat * limit < 2 * m.toNat) :
    (reduceSum m w carry).toNat = (w.toNat + carry.toNat * limit) % m.toNat := by
  have hm := m.toNat_lt
  have hw := w.toNat_lt
  have hsub := toNat_subBorrow w m
  rw [reduceSum]
  generalize w.subBorrow m = result at hsub ⊢
  obtain ⟨difference, borrow⟩ := result
  have hlt := difference.toNat_lt
  -- the difference is what is left, unless the borrow is not covered by the carry
  have hkept : difference.toNat + m.toNat = w.toNat + carry.toNat * limit →
      difference.toNat = (w.toNat + carry.toNat * limit) % m.toNat := by
    intro heq
    rw [← heq, Nat.add_mod_right, Nat.mod_eq_of_lt (by omega)]
  cases borrow <;> cases carry <;>
    simp only [Bool.toNat_false, Bool.toNat_true, Nat.zero_mul, Nat.one_mul, Nat.add_zero] at *
  case false.false => exact hkept hsub
  case true.true => exact hkept hsub
  case false.true =>
    -- without a borrow the word is at least the modulus, and the carry is more than it
    omega
  case true.false =>
    have hback : (difference + m).toNat = w.toNat := by
      rw [toNat_add, hsub, Nat.add_mod_right, Nat.mod_eq_of_lt hw]
    rw [Nat.mod_eq_of_lt (by omega)]
    exact hback

theorem toNat_addMod {a b : Word} (ha : a.toNat < m.toNat) (hb : b.toNat < m.toNat) :
    (addMod m a b).toNat = (a.toNat + b.toNat) % m.toNat := by
  have hsum := toNat_addCarry a b false
  rw [Bool.toNat_false, Nat.add_zero] at hsum
  rw [addMod, toNat_reduceSum (by omega), hsum]

theorem toNat_subMod {a b : Word} (ha : a.toNat < m.toNat) (hb : b.toNat < m.toNat) :
    (subMod m a b).toNat = (a.toNat + (m.toNat - b.toNat)) % m.toNat := by
  have hm := m.toNat_lt
  have hsub := toNat_subBorrow a b
  rw [subMod]
  generalize a.subBorrow b = result at hsub ⊢
  obtain ⟨difference, borrow⟩ := result
  dsimp only at hsub ⊢
  cases borrow with
  | false =>
    rw [Bool.toNat_false, Nat.zero_mul, Nat.add_zero] at hsub
    have hsum : a.toNat + (m.toNat - b.toNat) = difference.toNat + m.toNat := by omega
    rw [if_neg Bool.false_ne_true, hsum, Nat.add_mod_right, Nat.mod_eq_of_lt (by omega)]
  | true =>
    rw [Bool.toNat_true, Nat.one_mul] at hsub
    have hless : a.toNat < b.toNat := by
      have := difference.toNat_lt
      omega
    have hsum : difference.toNat + m.toNat = a.toNat + (m.toNat - b.toNat) + limit := by omega
    rw [if_pos rfl, toNat_add, hsum, Nat.add_mod_right, Nat.mod_eq_of_lt (by omega),
      Nat.mod_eq_of_lt (by omega)]

end Word

end BallotProof
