import BallotProof.Proofs.FreshGroups

/-!
# The guard in front of a search

A search is refused before anything is drawn if its bit lengths are unusable.  The guard compares
with a sum of machine integers, which wraps to a small number for the three largest numbers of bits
of the order.  So for them the guard passes, although no prime of so many bits fits in a word.

* `SchnorrGroup.usableBitLengths_iff` : what the guard compares, with the sum modulo `2 ^ 64`.
* `SchnorrGroup.usableBitLengths_eq_false_iff` : it refuses what is unusable, unless the sum wraps.
* `SchnorrGroup.search_eq_none_of_wraps` : where the sum wraps, a search ends without an answer.
* `SchnorrGroup.search_refuses_iff` : **exactly which searches are refused**, and that subtraction
  and shift are only reached with usable bit lengths.
* `SchnorrGroup.search_not_refused` : a search that should be refused and is not.
-/

namespace BallotProof

/-- Primes are drawn with the wanted number of bits. -/
def Draws.Exact (draws : Draws) : Prop :=
  ∀ bits q, draws.prime bits = some q → q.toNat.size = bits

namespace SchnorrGroup

variable {isPrime : Word → Bool} {draws : Draws} {attempts : Nat} {qBits pBits : UInt64}

/-- What a search is to refuse, computed without wrapping: the order has less than three bits, the
modulus does not fit in a word, or less than three bits are left for the cofactor. -/
def Unusable (qBits pBits : UInt64) : Prop :=
  qBits.toNat < 3 ∨ 4096 < pBits.toNat ∨ pBits.toNat < qBits.toNat + 3

/-- The least number of bits of the modulus is beyond the machine integers, and what is left of it
modulo `2 ^ 64` is not above the wanted number. -/
def SumWraps (qBits pBits : UInt64) : Prop :=
  2 ^ 64 ≤ qBits.toNat + 3 ∧ qBits.toNat + 3 ≤ pBits.toNat + 2 ^ 64 ∧ pBits.toNat ≤ 4096

instance (qBits pBits : UInt64) : Decidable (Unusable qBits pBits) :=
  inferInstanceAs (Decidable (_ ∨ _ ∨ _))

instance (qBits pBits : UInt64) : Decidable (SumWraps qBits pBits) :=
  inferInstanceAs (Decidable (_ ∧ _ ∧ _))

theorem usableBitLengths_iff :
    usableBitLengths qBits pBits = true ↔
      3 ≤ qBits.toNat ∧ (qBits.toNat + 3) % 2 ^ 64 ≤ pBits.toNat ∧ pBits.toNat ≤ 4096 := by
  have hwidth : (UInt64.ofNat (8 * Word.width)).toNat = 4096 := by decide
  have hthree : (3 : UInt64).toNat = 3 := rfl
  have hsum : (qBits + 3).toNat = (qBits.toNat + 3) % 2 ^ 64 := UInt64.toNat_add ..
  simp only [usableBitLengths, UInt64.lt_iff_toNat_lt, hwidth, hsum, hthree, Bool.not_eq_true',
    Bool.or_eq_false_iff, decide_eq_false_iff_not, not_lt, and_assoc]

/-- **The guard refuses what is unusable, unless the sum wraps.** -/
theorem usableBitLengths_eq_false_iff :
    usableBitLengths qBits pBits = false ↔ Unusable qBits pBits ∧ ¬ SumWraps qBits pBits := by
  have hlt := qBits.toNat_lt
  rw [← Bool.not_eq_true, usableBitLengths_iff, Unusable, SumWraps]
  -- the sum is below `2 ^ 65`, so it wraps once or not at all
  omega

/-- What passes the guard although it is unusable has a sum that wraps. -/
theorem usableBitLengths_eq_true_iff :
    usableBitLengths qBits pBits = true ↔ ¬ Unusable qBits pBits ∨ SumWraps qBits pBits := by
  rw [← Bool.not_eq_false, usableBitLengths_eq_false_iff]
  tauto

theorem search_eq_none_of_prime (h : usableBitLengths qBits pBits = true)
    (hprime : draws.prime qBits.toNat = none) :
    search isPrime draws attempts qBits pBits = none := by
  rw [search, if_pos h, hprime]
  rfl

theorem prime_eq_none_of_wraps (hdraws : draws.Exact) (h : SumWraps qBits pBits) :
    draws.prime qBits.toNat = none := by
  cases hprime : draws.prime qBits.toNat with
  | none => rfl
  | some q =>
    -- a word has at most 4096 bits
    have hsize := hdraws _ q hprime
    have hlt : q.toNat.size ≤ 8 * Word.width := by
      rw [Nat.size_le, ← Word.limit_eq_two_pow]
      exact q.toNat_lt
    have hwidth : 8 * Word.width = 4096 := by decide
    obtain ⟨hwraps, -, -⟩ := h
    omega

theorem search_eq_none_of_wraps (hdraws : draws.Exact) (h : SumWraps qBits pBits) :
    search isPrime draws attempts qBits pBits = none :=
  search_eq_none_of_prime (usableBitLengths_eq_true_iff.2 (.inr h))
    (prime_eq_none_of_wraps hdraws h)

/-- A source of draws that has no primes. -/
def noPrimes : Draws where
  prime := fun _ => none
  below := fun bound _ => bound
  word := fun _ => 0

theorem exact_noPrimes : noPrimes.Exact :=
  fun _ _ h => nomatch h

theorem search_eq_error_iff :
    (∀ isPrime draws attempts, search isPrime draws attempts qBits pBits
        = some (.error (.unusableBitLengths qBits pBits))) ↔
      usableBitLengths qBits pBits = false := by
  constructor
  · intro h
    refine Bool.eq_false_iff.2 fun husable => ?_
    have hrefused := h (fun _ => true) noPrimes 0
    rw [search_eq_none_of_prime husable rfl] at hrefused
    exact nomatch hrefused
  · intro h isPrime draws attempts
    exact search_of_not_usable h

/-- **Exactly which searches are refused.**  With both numbers named, whatever is drawn, a search is
refused exactly if its bit lengths are unusable and the sum does not wrap.  Where the sum wraps the
bit lengths are unusable too, but a prime is drawn, and as none has so many bits the search ends
without an answer.  Behind that draw the bit lengths are always usable, the difference is exact, and
the cofactor has at least the two bits that are shifted away. -/
theorem search_refuses_iff (qBits pBits : UInt64) :
    ((∀ isPrime draws attempts, search isPrime draws attempts qBits pBits
        = some (.error (.unusableBitLengths qBits pBits))) ↔
      Unusable qBits pBits ∧ ¬ SumWraps qBits pBits) ∧
    (SumWraps qBits pBits → Unusable qBits pBits ∧ ∀ isPrime draws attempts, draws.Exact →
      search isPrime draws attempts qBits pBits = none) ∧
    ∀ (draws : Draws) (q : Word), draws.Exact → usableBitLengths qBits pBits = true →
      draws.prime qBits.toNat = some q →
        ¬ Unusable qBits pBits ∧ (pBits - qBits).toNat = pBits.toNat - qBits.toNat ∧
          2 ≤ (pBits - qBits).toNat := by
  refine ⟨search_eq_error_iff.trans usableBitLengths_eq_false_iff, fun hwraps => ⟨?_, ?_⟩, ?_⟩
  · obtain ⟨hsum, -, hmax⟩ := hwraps
    exact .inr (.inr (by omega))
  · intro isPrime draws attempts hdraws
    exact search_eq_none_of_wraps hdraws hwraps
  · intro draws q hdraws husable hprime
    have husable' : ¬ Unusable qBits pBits := by
      refine (usableBitLengths_eq_true_iff.1 husable).resolve_right fun hwraps => ?_
      rw [prime_eq_none_of_wraps hdraws hwraps] at hprime
      exact nomatch hprime
    have hle : qBits.toNat + 3 ≤ pBits.toNat := by
      unfold Unusable at husable'
      omega
    have hsub : (pBits - qBits).toNat = pBits.toNat - qBits.toNat :=
      UInt64.toNat_sub_of_le _ _ (UInt64.le_iff_toNat_le.2 (by omega))
    exact ⟨husable', hsub, by omega⟩

/-- The largest machine integer plus three wraps to two.  So an order of that many bits and a
modulus of 2048 bits pass the guard, and the search ends without an answer instead of being
refused. -/
theorem search_not_refused :
    Unusable 18446744073709551615 2048 ∧
      (∀ isPrime draws attempts, draws.Exact →
        search isPrime draws attempts 18446744073709551615 2048 = none) ∧
      ¬ ∀ isPrime draws attempts, search isPrime draws attempts 18446744073709551615 2048
        = some (.error (.unusableBitLengths 18446744073709551615 2048)) := by
  have hwraps : SumWraps 18446744073709551615 2048 := by decide
  refine ⟨by decide, fun isPrime draws attempts hdraws => search_eq_none_of_wraps hdraws hwraps,
    fun h => ?_⟩
  have hrefused := h (fun _ => true) noPrimes 0
  rw [search_eq_none_of_wraps exact_noPrimes hwraps] at hrefused
  exact nomatch hrefused

end SchnorrGroup

end BallotProof
