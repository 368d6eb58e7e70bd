/-!
# Powers and inverses modulo a natural number

* `Modular.pow_eq` : the power scans a fixed number of low bits of the exponent, so it is the exact
  power whenever the exponent fits (`Modular.pow_of_lt`).
* `Modular.gcdMultiplier_fst`, `Modular.gcdMultiplier_snd` : repeated division finds the greatest
  common divisor and a multiplier for it.
* `Modular.inverse?_isSome_iff` : an inverse is found exactly for numbers prime to the modulus, and
  it is one (`Modular.mul_inverse?`).
-/

namespace BallotProof

namespace Modular

/-! ### Powers -/

/-- The power of `base` to the number that the lowest `bits` bits of `exp` form, modulo `m`, by
squaring from the low end. -/
def pow (m : Nat) : Nat → Nat → Nat → Nat
  | 0, _, _ => 1 % m
  | bits + 1, base, exp =>
    let rest := pow m bits (base * base % m) (exp / 2)
    if exp % 2 = 0 then rest else base * rest % m

/-- The number of binary digits. -/
def bitLength (n : Nat) : Nat :=
  if n = 0 then 0 else n.log2 + 1

theorem pow_eq (m bits base exp : Nat) : pow m bits base exp = base ^ (exp % 2 ^ bits) % m := by
  induction bits generalizing base exp with
  | zero => simp [pow, Nat.mod_one]
  | succ bits ih =>
    have split : exp % 2 ^ (bits + 1) = exp % 2 + 2 * (exp / 2 % 2 ^ bits) := by
      rw [Nat.pow_succ, Nat.mul_comm (2 ^ bits) 2, Nat.mod_mul]
    have square : (base * base % m) ^ (exp / 2 % 2 ^ bits) % m
        = base ^ (2 * (exp / 2 % 2 ^ bits)) % m := by
      rw [← Nat.pow_mod, Nat.pow_mul, Nat.pow_two]
    simp only [pow, ih, square, split]
    rcases Nat.mod_two_eq_zero_or_one exp with h | h
    · simp [h]
    · rw [h, if_neg (by decide), Nat.add_comm 1, Nat.pow_succ, Nat.mul_mod_mod, Nat.mul_comm]

/-- A power is exact if the exponent fits in the bits that are scanned. -/
theorem pow_of_lt {m bits base exp : Nat} (h : exp < 2 ^ bits) :
    pow m bits base exp = base ^ exp % m := by
  rw [pow_eq, Nat.mod_eq_of_lt h]

theorem lt_two_pow_bitLength (n : Nat) : n < 2 ^ bitLength n := by
  unfold bitLength
  split
  · subst_vars
    decide
  · exact Nat.lt_log2_self

theorem two_pow_le_of_bitLength {n : Nat} (h : n ≠ 0) : 2 ^ (bitLength n - 1) ≤ n := by
  rw [bitLength, if_neg h, Nat.add_sub_cancel]
  exact Nat.log2_self_le h

/-! ### Inverses -/

/-- Repeated division of `r` and `r'`, with multipliers `s` and `s'` modulo `m`: if they bring
some number to `r` and `r'`, the second component brings it to the greatest common divisor, which
is the first. -/
def gcdMultiplier (m r s r' s' : Nat) : Nat × Nat :=
  if _ : r' = 0 then (r, s)
  else gcdMultiplier m r' s' (r % r') ((s + (m - r / r' * s' % m)) % m)
termination_by r'
decreasing_by exact Nat.mod_lt _ (Nat.pos_of_ne_zero ‹_›)

/-- The inverse of `x` modulo `m`, if there is one. -/
def inverse? (m x : Nat) : Option Nat :=
  let (gcd, multiplier) := gcdMultiplier m m 0 (x % m) 1
  if gcd = 1 then some (multiplier % m) else none

theorem gcdMultiplier_fst (m r s r' s' : Nat) : (gcdMultiplier m r s r' s').1 = Nat.gcd r r' := by
  fun_induction gcdMultiplier m r s r' s' with
  | case1 r s s' => simp
  | case2 r s r' s' h ih =>
    rw [ih, Nat.gcd_comm r r', Nat.gcd_rec r' r, Nat.gcd_comm]

/-- What was added on both sides can be taken away, modulo any number. -/
theorem mod_eq_of_add_mod_eq {m a b c : Nat} (h : (a + c) % m = (b + c) % m) : a % m = b % m := by
  have hcast : ((a + c : Nat) : Int) % m = ((b + c : Nat) : Int) % m := by
    rw [← Int.natCast_emod, h, Int.natCast_emod]
  rw [Int.natCast_add, Int.natCast_add, Int.emod_add_cancel_right] at hcast
  exact_mod_cast hcast

/-- The multipliers keep what they bring a number `x` to. -/
theorem gcdMultiplier_snd {m x : Nat} (hm : 0 < m) (r s r' s' : Nat) (h : s * x % m = r % m)
    (h' : s' * x % m = r' % m) :
    (gcdMultiplier m r s r' s').2 * x % m = Nat.gcd r r' % m := by
  fun_induction gcdMultiplier m r s r' s' with
  | case1 r s s' => simpa using h
  | case2 r s r' s' hr ih =>
    rw [Nat.gcd_comm r r', Nat.gcd_rec r' r, Nat.gcd_comm]
    refine ih h' ?_
    rw [Nat.mod_mul_mod]
    have hlt : r / r' * s' % m < m := Nat.mod_lt _ hm
    have hq : (r / r' * s' % m) * x % m = r / r' * r' % m := by
      rw [Nat.mod_mul_mod, Nat.mul_assoc, Nat.mul_mod, h', ← Nat.mul_mod]
    have hsum : ((s + (m - r / r' * s' % m)) * x + r / r' * s' % m * x) % m
        = (r % r' + r / r' * r') % m := by
      rw [← Nat.add_mul, show s + (m - r / r' * s' % m) + r / r' * s' % m = s + m by omega,
        Nat.add_mul, Nat.add_mul_mod_self_left, h, Nat.mul_comm (r / r') r', Nat.mod_add_div]
    rw [Nat.add_mod, hq, ← Nat.add_mod] at hsum
    exact mod_eq_of_add_mod_eq hsum

theorem inverse?_isSome_iff (m x : Nat) : (inverse? m x).isSome ↔ Nat.gcd x m = 1 := by
  have hgcd : Nat.gcd m (x % m) = Nat.gcd x m := by
    rw [Nat.gcd_comm, ← Nat.gcd_rec, Nat.gcd_comm]
  simp only [inverse?, gcdMultiplier_fst, hgcd]
  split <;> simp_all

/-- What is found is an inverse. -/
theorem mul_inverse? {m x y : Nat} (hm : 1 < m) (h : inverse? m x = some y) :
    y < m ∧ y * x % m = 1 := by
  simp only [inverse?, gcdMultiplier_fst] at h
  split at h
  · rename_i hgcd
    obtain rfl := Option.some.inj h
    refine ⟨Nat.mod_lt _ (by omega), ?_⟩
    have := gcdMultiplier_snd (x := x) (by omega : 0 < m) m 0 (x % m) 1 (by simp) (by simp)
    rw [Nat.mod_mul_mod, this, hgcd, Nat.mod_eq_of_lt hm]
  · simp at h

end Modular

end BallotProof
