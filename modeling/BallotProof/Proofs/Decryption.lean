import BallotProof.Proofs.Encryption
import BallotProof.Proofs.Powers
import Mathlib.Order.Lattice.Nat

/-!
# What decryption answers

Decryption divides the second component of a ciphertext by a blinding factor and searches for the
exponent of the generator.  The factor comes from the secret key, from the nonce or from elsewhere,
and the components of the ciphertext may be any words.

* `Ciphertext.openings` are the plaintexts that account for the second component.
* `Ciphertext.decryptWithBlinding?_eq_some_iff`, `Ciphertext.decryptWithBlinding?_eq_none_iff` :
  **the answer is the least opening, and there is one unless the factor has no inverse or nothing
  opens the ciphertext.**
* `Ciphertext.routes_ofClasses` : in a group of prime order the three routes give the same answer.
* `Ciphertext.decryption_exact` : **decryption is exact**, on all words and for what was encrypted.
-/

namespace BallotProof

open SchnorrGroup

variable {G : SchnorrGroup}

namespace Ciphertext

variable {x : Ciphertext}

/-! ### Openings of arbitrary ciphertexts -/

/-- The plaintexts below the bound that account for the second component, where `X` is what blinds
it. -/
def openings (G : SchnorrGroup) (x : Ciphertext) (X bound : Nat) : Set Nat :=
  {m | m < bound ∧ G.g.toNat ^ m * X ≡ x.beta.toNat [MOD G.p.toNat]}

/-- With the inverse of the blinding factor the search finds the least opening. -/
theorem discreteLog?_eq_some_iff_isLeast {y : Element} {X bound m : Nat}
    (hXy : X * y.toNat ≡ 1 [MOD G.p.toNat]) :
    G.discreteLog? (G.prod [x.beta, y]) bound = some m ↔ IsLeast (x.openings G X bound) m := by
  have hopens : ∀ k, G.g.toNat ^ k % G.p.toNat = (G.prod [x.beta, y]).toNat % G.p.toNat ↔
      G.g.toNat ^ k * X ≡ x.beta.toNat [MOD G.p.toNat] := by
    intro k
    rw [Modular.mul_modEq_iff hXy, toNat_prod_pair, Nat.mod_mod]
    exact .rfl
  simp only [discreteLog?_eq_some_iff, ne_eq, hopens]
  constructor
  · rintro ⟨hlt, hm, hleast⟩
    refine ⟨⟨hlt, hm⟩, fun k hk => ?_⟩
    by_contra hkm
    exact hleast k (Nat.lt_of_not_le hkm) hk.2
  · rintro ⟨⟨hlt, hm⟩, hleast⟩
    refine ⟨hlt, hm, fun k hkm hk => ?_⟩
    exact Nat.not_le.2 hkm (hleast ⟨hkm.trans hlt, hk⟩)

variable {blinding : Element} {X bound : Nat}

/-- **The answer is the least opening**, for any words and a blinding factor that has an inverse. -/
theorem decryptWithBlinding?_eq_some_iff (hX : blinding.toNat ≡ X [MOD G.p.toNat]) {m : Nat} :
    x.decryptWithBlinding? G blinding bound = some m ↔
      (∃ y, X * y ≡ 1 [MOD G.p.toNat]) ∧ IsLeast (x.openings G X bound) m := by
  cases hinverse : G.inverse? blinding with
  | none =>
    have hnone := inverse?_eq_none_iff.1 hinverse
    have hno : ¬ ∃ y, X * y ≡ 1 [MOD G.p.toNat] :=
      fun ⟨y, hy⟩ => hnone ⟨y, (hX.mul_right y).trans hy⟩
    simp only [decryptWithBlinding?, hinverse, Option.bind_eq_bind, Option.bind_none, reduceCtorEq,
      hno, false_and]
  | some y =>
    have hXy : X * y.toNat ≡ 1 [MOD G.p.toNat] :=
      (hX.symm.mul_right _).trans (inverse?_eq_some_iff.1 hinverse).2
    have hyes : ∃ y, X * y ≡ 1 [MOD G.p.toNat] := ⟨_, hXy⟩
    rw [decryptWithBlinding?, hinverse, Option.bind_eq_bind, Option.bind_some,
      discreteLog?_eq_some_iff_isLeast hXy, and_iff_right hyes]

theorem decryptWithBlinding?_eq_none_iff (hX : blinding.toNat ≡ X [MOD G.p.toNat]) :
    x.decryptWithBlinding? G blinding bound = none ↔
      ¬ ((∃ y, X * y ≡ 1 [MOD G.p.toNat]) ∧ (x.openings G X bound).Nonempty) := by
  rw [Option.eq_none_iff_forall_ne_some]
  constructor
  · rintro h ⟨hinvertible, hopens⟩
    have hleast : IsLeast (x.openings G X bound) (sInf (x.openings G X bound)) :=
      ⟨Nat.sInf_mem hopens, fun _ => Nat.sInf_le⟩
    exact h _ ((decryptWithBlinding?_eq_some_iff hX).2 ⟨hinvertible, hleast⟩)
  · intro h m hm
    obtain ⟨hinvertible, hleast⟩ := (decryptWithBlinding?_eq_some_iff hX).1 hm
    exact h ⟨hinvertible, m, hleast.1⟩

/-! ### The three routes -/

theorem decryptWithBlinding?_congr {blinding' : Element}
    (h : blinding.toNat ≡ blinding'.toNat [MOD G.p.toNat]) :
    x.decryptWithBlinding? G blinding bound = x.decryptWithBlinding? G blinding' bound := by
  rw [decryptWithBlinding?, decryptWithBlinding?, inverse?_congr h]

theorem routes_ofClasses (hq : G.q.toNat.Prime) (s r : Scalar) (m : ZMod G.q.toNat) (bound : Nat) :
    let key := G.element (G.exponent s • G.base)
    let x := ofClasses (G.exponent s • G.base) m (G.exponent r)
    let answer := if m.val < bound then some m.val else none
    (∀ s' : Scalar, s'.toNat ≡ s.toNat [MOD G.q.toNat] → x.decrypt? G s' bound = answer) ∧
      (∀ r' : Scalar, r'.toNat ≡ r.toNat [MOD G.q.toNat] →
        x.decryptWithNonce? G r' key bound = answer) ∧
      (∀ blinding : Element, blinding.toNat ≡ key.toNat ^ r.toNat [MOD G.p.toNat] →
        x.decryptWithBlinding? G blinding bound = answer) := by
  intro key x answer
  have hopen : x.decryptWithBlinding? G (G.element (G.exponent r • G.exponent s • G.base)) bound =
      answer := by
    rw [decryptWithBlinding?_ofClasses, discreteLog?_element hq]
  refine ⟨fun s' hs => ?_, fun r' hr => ?_, fun blinding hblinding => ?_⟩
  · have hdecrypt := decrypt?_ofClasses hq s' m (G.exponent r) bound
    rwa [exponent_eq_iff.2 hs] at hdecrypt
  · rw [decryptWithNonce?, pow_element, exponent_eq_iff.2 hr, hopen]
  · rw [← hopen]
    exact decryptWithBlinding?_congr (hblinding.trans (toNat_element_pow_modEq _ _))

/-- **Decryption is exact.**  For any words, decryption with a secret key answers the least
plaintext below the bound that opens the ciphertext, where the first component to the power of the
reduced key blinds it; there is no answer if this power has no inverse or nothing opens the
ciphertext.  In a group of prime order, what was encrypted under the key of a key pair is found
modulo the order, if it is below the bound, by the secret key, by the nonce and by the key to the
power of the nonce, whichever representatives of these are given. -/
theorem decryption_exact (G : SchnorrGroup) :
    (∀ (x : Ciphertext) (secret : Scalar) (bound : Nat),
      let X := x.alpha.toNat ^ (secret.toNat % G.q.toNat)
      (∀ m, x.decrypt? G secret bound = some m ↔
        (∃ y, X * y ≡ 1 [MOD G.p.toNat]) ∧ IsLeast (x.openings G X bound) m) ∧
      (x.decrypt? G secret bound = none ↔
        ¬ ((∃ y, X * y ≡ 1 [MOD G.p.toNat]) ∧ (x.openings G X bound).Nonempty))) ∧
    (G.q.toNat.Prime → ∀ (s : Scalar) (keys : KeyPair), KeyPair.ofSecret G s = .ok keys →
      ∀ (m : Nat) (r : Scalar),
        (encrypt? G m r keys.publicKey = none ↔ r.toNat = 0 ∨ G.q.toNat ≤ r.toNat) ∧
        (0 < r.toNat → r.toNat < G.q.toNat → ∃ x, encrypt? G m r keys.publicKey = some x ∧
          ∀ bound,
            let answer := if m % G.q.toNat < bound then some (m % G.q.toNat) else none
            (∀ s' : Scalar, s'.toNat ≡ s.toNat [MOD G.q.toNat] →
              x.decrypt? G s' bound = answer) ∧
            (∀ r' : Scalar, r'.toNat ≡ r.toNat [MOD G.q.toNat] →
              x.decryptWithNonce? G r' keys.publicKey bound = answer) ∧
            (∀ blinding : Element,
              blinding.toNat ≡ keys.publicKey.toNat ^ r.toNat [MOD G.p.toNat] →
                x.decryptWithBlinding? G blinding bound = answer))) := by
  refine ⟨fun x secret bound => ⟨fun m => ?_, ?_⟩, fun hq s keys hkeys m r => ⟨?_, ?_⟩⟩
  · exact decryptWithBlinding?_eq_some_iff (toNat_pow_modEq x.alpha secret)
  · exact decryptWithBlinding?_eq_none_iff (toNat_pow_modEq x.alpha secret)
  · exact encrypt?_eq_none_iff
  · intro hpos hlt
    rw [KeyPair.publicKey_eq hkeys]
    refine ⟨_, encrypt?_element _ m hpos hlt, fun bound => ?_⟩
    rw [← ZMod.val_natCast]
    exact routes_ofClasses hq s r m bound

/-- The plaintext 13 in the group of order 11, opened with the secret 14, the nonce 16 and the
blinding factor 26, none of which is reduced. -/
theorem decryption_exact_small :
    ∃ x, encrypt? small 13 (small.toScalar 5) smallKeys.publicKey = some x ∧
      x.decrypt? small ⟨Word.ofNat 14⟩ 11 = some 2 ∧
      x.decryptWithNonce? small ⟨Word.ofNat 16⟩ smallKeys.publicKey 11 = some 2 ∧
      x.decryptWithBlinding? small ⟨Word.ofNat 26⟩ 2 = none := by
  have hword : ∀ n < 27, (Word.ofNat n).toNat = n := fun n hn =>
    Word.toNat_ofNat_of_lt (Word.lt_limit_of_lt (hn.trans (by decide)))
  obtain ⟨x, hx, hroutes⟩ := ((decryption_exact small).2 small_q_prime _ _ ofSecret_small 13
    (small.toScalar 5)).2 (by decide) (by decide)
  refine ⟨x, hx, (hroutes 11).1 _ ?_, (hroutes 11).2.1 _ ?_, (hroutes 2).2.2 _ ?_⟩
  · rw [hword 14 (by decide)]
    decide +kernel
  · rw [hword 16 (by decide)]
    decide +kernel
  · rw [hword 26 (by decide)]
    decide +kernel

end Ciphertext

end BallotProof
