import BallotProof.Proofs.Encryption
import BallotProof.Proofs.Powers

/-!
# Discrete logarithms

The search goes through the exponents below a bound, one after the other, and stops at the first
power of the generator that is congruent to the target, which may be any word.  So an answer depends
on the bound only by being below it.  As the powers recur after `q` steps, what is not found below
`q` is not found at all, whether or not `q` is prime.

* `SchnorrGroup.discreteLog?_of_le` : an answer stays when the bound is raised.
* `SchnorrGroup.discreteLog?_of_q_le` : bounds from `q` on give the same answer.
* `SchnorrGroup.discreteLog?_generatorPow` : for prime `q` the search undoes the powers of the
  generator.
* `SchnorrGroup.discreteLog?_exact` : **the search is exact**, for all targets and bounds.
-/

namespace BallotProof

namespace SchnorrGroup

variable {G : SchnorrGroup} {target : Element} {bound bound' m : Nat}

theorem discreteLog?_of_le (h : G.discreteLog? target bound = some m) (hle : bound ≤ bound') :
    G.discreteLog? target bound' = some m := by
  obtain ⟨hlt, hm, hleast⟩ := discreteLog?_eq_some_iff.1 h
  exact discreteLog?_eq_some_iff.2 ⟨Nat.lt_of_lt_of_le hlt hle, hm, hleast⟩

theorem discreteLog?_of_q_le (target : Element) (hle : G.q.toNat ≤ bound) :
    G.discreteLog? target bound = G.discreteLog? target G.q.toNat := by
  cases hq : G.discreteLog? target G.q.toNat with
  | some m => exact discreteLog?_of_le hq hle
  | none =>
    refine discreteLog?_eq_none_iff.2 fun k _ hk => ?_
    -- every power is also one below `q`, where none fits
    have hrecurs : G.g.toNat ^ (k % G.q.toNat) ≡ target.toNat [MOD G.p.toNat] :=
      (g_pow_mod_q k).trans hk
    exact discreteLog?_eq_none_iff.1 hq _ (Nat.mod_lt k G.q_pos) hrecurs

theorem discreteLog?_generatorPow (hq : G.q.toNat.Prime) (e : Scalar) (bound : Nat) :
    G.discreteLog? (G.generatorPow e) bound =
      if e.toNat % G.q.toNat < bound then some (e.toNat % G.q.toNat) else none := by
  rw [generatorPow_eq, discreteLog?_element hq, exponent, ZMod.val_natCast]

/-- **The search is exact.**  For every group, target and bound, reduced or not, the answer is the
least exponent below the bound to which the generator is congruent to the target modulo `p`, and
there is none exactly if no exponent below the bound fits.  An answer stays when the bound is
raised, and all bounds from `q` on give the same.  If `q` is prime, a power of the generator gives
back its exponent modulo `q` exactly if this is below the bound. -/
theorem discreteLog?_exact (G : SchnorrGroup) :
    (∀ (target : Element) (bound : Nat),
      (∀ m, G.discreteLog? target bound = some m ↔
        m < bound ∧ G.g.toNat ^ m ≡ target.toNat [MOD G.p.toNat] ∧
          ∀ k < m, ¬ G.g.toNat ^ k ≡ target.toNat [MOD G.p.toNat]) ∧
      (G.discreteLog? target bound = none ↔
        ¬ ∃ m < bound, G.g.toNat ^ m ≡ target.toNat [MOD G.p.toNat]) ∧
      (∀ bound' m, bound ≤ bound' → G.discreteLog? target bound = some m →
        G.discreteLog? target bound' = some m) ∧
      (G.q.toNat ≤ bound → G.discreteLog? target bound = G.discreteLog? target G.q.toNat)) ∧
    (G.q.toNat.Prime → ∀ (e : Scalar) (bound : Nat),
      G.discreteLog? (G.generatorPow e) bound =
        if e.toNat % G.q.toNat < bound then some (e.toNat % G.q.toNat) else none) := by
  refine ⟨fun target bound => ⟨fun m => discreteLog?_eq_some_iff, ?_,
    fun _ _ hle h => discreteLog?_of_le h hle, discreteLog?_of_q_le target⟩,
    discreteLog?_generatorPow⟩
  rw [discreteLog?_eq_none_iff]
  simp only [not_exists, not_and]
  exact .rfl

/-- In the group of order 11 modulo 23 the words 18 and 41 are the third power of 4, 5 is no power,
and the exponent 18 is 7 modulo 11. -/
theorem discreteLog?_exact_small :
    let target : Element := ⟨⟨41, Word.lt_limit_of_lt (by decide)⟩⟩
    let e : Scalar := ⟨⟨18, Word.lt_limit_of_lt (by decide)⟩⟩
    small.discreteLog? target 3 = none ∧ small.discreteLog? target 4 = some 3 ∧
      small.discreteLog? target (2 ^ 64 - 1) = some 3 ∧
      small.discreteLog? (small.toElement 5) 100 = none ∧
      small.discreteLog? (small.generatorPow e) 7 = none ∧
      small.discreteLog? (small.generatorPow e) 8 = some 7 := by
  intro target e
  obtain ⟨hany, hpower⟩ := discreteLog?_exact small
  obtain ⟨hfound, -, hraise, -⟩ := hany target 4
  have hthree : small.discreteLog? target 4 = some 3 := (hfound 3).2 (by decide)
  refine ⟨(hany target 3).2.1.2 (by decide), hthree, hraise _ 3 (by decide) hthree, ?_, ?_, ?_⟩
  · rw [(hany _ 100).2.2.2 (by decide), (hany _ _).2.1]
    decide
  · rw [hpower small_q_prime, if_neg (by decide)]
  · rw [hpower small_q_prime, if_pos (by decide)]
    decide

end SchnorrGroup

end BallotProof
