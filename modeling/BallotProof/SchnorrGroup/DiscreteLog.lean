import BallotProof.SchnorrGroup.Arithmetic

/-!
# Discrete logarithms by search

Plaintexts stand in the exponent and are small, so they are found by trying the powers of the
generator one after the other.

* `SchnorrGroup.discreteLog?_eq_some_iff` : what is found is the least exponent below the bound.
* `SchnorrGroup.discreteLog?_eq_none_iff` : nothing is found if no exponent below the bound fits.
-/

namespace BallotProof

namespace SchnorrGroup

/-- The first exponent from `exp` on, in `count` steps, at which the powers of `g` modulo `p`
reach `target`; `power` is the power at `exp`. -/
def searchPowers (p g target : Nat) : Nat → Nat → Nat → Option Nat
  | 0, _, _ => none
  | count + 1, exp, power =>
    if power = target then some exp
    else searchPowers p g target count (exp + 1) (power * g % p)

variable (G : SchnorrGroup)

/-- The least exponent below `bound` to which the generator has to be raised to get `target`. -/
def discreteLog? (target : Element) (bound : Nat) : Option Nat :=
  searchPowers G.p.toNat G.g.toNat (target.toNat % G.p.toNat) bound 0 (1 % G.p.toNat)

variable {G}

theorem searchPowers_eq_some_iff (p g target count exp m : Nat) :
    searchPowers p g target count exp (g ^ exp % p) = some m ↔
      exp ≤ m ∧ m < exp + count ∧ g ^ m % p = target ∧
        ∀ k, exp ≤ k → k < m → g ^ k % p ≠ target := by
  induction count generalizing exp with
  | zero =>
    simp only [searchPowers, reduceCtorEq, false_iff]
    omega
  | succ count ih =>
    rw [searchPowers]
    split
    · rename_i h
      constructor
      · intro hm
        obtain rfl := Option.some.inj hm
        exact ⟨Nat.le_refl _, by omega, h, fun k _ _ => by omega⟩
      · rintro ⟨hle, -, -, hleast⟩
        rcases Nat.lt_or_eq_of_le hle with hlt | rfl
        · exact absurd h (hleast exp (Nat.le_refl _) hlt)
        · rfl
    · rename_i h
      rw [Nat.mod_mul_mod, ← Nat.pow_succ, ih]
      constructor
      · rintro ⟨hle, hlt, heq, hleast⟩
        refine ⟨by omega, by omega, heq, fun k hk hkm => ?_⟩
        rcases Nat.lt_or_eq_of_le hk with hk | rfl
        · exact hleast k hk hkm
        · exact h
      · rintro ⟨hle, hlt, heq, hleast⟩
        have hne : exp ≠ m := by
          rintro rfl
          exact h heq
        exact ⟨by omega, by omega, heq, fun k hk hkm => hleast k (by omega) hkm⟩

theorem searchPowers_eq_none_iff (p g target count exp : Nat) :
    searchPowers p g target count exp (g ^ exp % p) = none ↔
      ∀ k, exp ≤ k → k < exp + count → g ^ k % p ≠ target := by
  induction count generalizing exp with
  | zero =>
    simp only [searchPowers, true_iff]
    omega
  | succ count ih =>
    rw [searchPowers]
    split
    · rename_i h
      exact iff_of_false (by simp) fun hnone => hnone exp (Nat.le_refl _) (by omega) h
    · rename_i h
      rw [Nat.mod_mul_mod, ← Nat.pow_succ, ih]
      refine ⟨fun hnone k hk hlt => ?_, fun hnone k hk hlt => hnone k (by omega) (by omega)⟩
      rcases Nat.lt_or_eq_of_le hk with hk | rfl
      · exact hnone k hk (by omega)
      · exact h

/-- **What is found is the least exponent below the bound.** -/
theorem discreteLog?_eq_some_iff {target : Element} {bound m : Nat} :
    G.discreteLog? target bound = some m ↔
      m < bound ∧ G.g.toNat ^ m % G.p.toNat = target.toNat % G.p.toNat ∧
        ∀ k < m, G.g.toNat ^ k % G.p.toNat ≠ target.toNat % G.p.toNat := by
  have := searchPowers_eq_some_iff G.p.toNat G.g.toNat (target.toNat % G.p.toNat) bound 0 m
  simpa [discreteLog?] using this

/-- **Nothing is found if no exponent below the bound fits.** -/
theorem discreteLog?_eq_none_iff {target : Element} {bound : Nat} :
    G.discreteLog? target bound = none ↔
      ∀ k < bound, G.g.toNat ^ k % G.p.toNat ≠ target.toNat % G.p.toNat := by
  have := searchPowers_eq_none_iff G.p.toNat G.g.toNat (target.toNat % G.p.toNat) bound 0
  simpa [discreteLog?] using this

end SchnorrGroup

end BallotProof
