import BallotProof.Proofs.Validation
import BallotProof.SchnorrGroup.Search
import Mathlib.FieldTheory.Finite.Basic

/-!
# Groups found by search

The modulus of a fresh group is a prime `k * q + 1` with an even cofactor `k`, and its generator is
a power `h ^ k` that is neither zero nor one.  So its `q`-th power is `h ^ (p - 1)`, which is one by
Fermat's theorem, and the check at the end of a search has nothing to refuse.

* `SchnorrGroup.searchModulus_eq_some` : what one draw gives: the cofactor has exactly the wanted
  bits, and the modulus is computed without a carry out of the word.
* `SchnorrGroup.searchGenerator_eq_some` : the whole cofactor goes into the power.
* `SchnorrGroup.valid_of_found` : what the searches find is valid.
* `SchnorrGroup.search_usable` : **a search whose loops end gives a group**, with the wanted numbers
  of bits and a generator of order `q`.
-/

namespace BallotProof

/-! ### Numbers of bits -/

theorem size_mul_add_one {k q : Nat} (hk : 0 < k) (hq : 0 < q) :
    (k * q + 1).size = k.size + q.size ∨ (k * q + 1).size + 1 = k.size + q.size := by
  have hksize : 0 < k.size := Nat.size_pos.2 hk
  have hqsize : 0 < q.size := Nat.size_pos.2 hq
  have hupper : (k * q + 1).size ≤ k.size + q.size := by
    rw [Nat.size_le, pow_add]
    calc k * q + 1 < (k + 1) * (q + 1) := by
          rw [Nat.add_one_mul, Nat.mul_add_one]
          omega
      _ ≤ 2 ^ k.size * 2 ^ q.size := Nat.mul_le_mul (Nat.lt_size_self k) (Nat.lt_size_self q)
  have hlower : k.size - 1 + (q.size - 1) < (k * q + 1).size := by
    rw [Nat.lt_size, pow_add]
    calc 2 ^ (k.size - 1) * 2 ^ (q.size - 1) ≤ k * q :=
          Nat.mul_le_mul (Nat.lt_size.1 (by omega)) (Nat.lt_size.1 (by omega))
      _ ≤ k * q + 1 := Nat.le_succ _
  omega

theorem size_eq_of_pow_le {n bits : Nat} (hlow : 2 ^ bits ≤ n) (hhigh : n < 2 ^ (bits + 1)) :
    n.size = bits + 1 :=
  le_antisymm (Nat.size_le.2 hhigh) (Nat.lt_size.2 hlow)

namespace SchnorrGroup

variable {isPrime : Word → Bool} {draws : Draws} {attempts bits : Nat} {k p q g : Word}

/-! ### Modulus and generator -/

/-- **Twice a number with its top bit set** is even and has one bit more, and doubling it does not
leave the word. -/
theorem toNat_cofactor {r : Word} (hr : r.toNat < 2 ^ bits) (hbits : bits + 2 ≤ 8 * Word.width) :
    let half := r + Word.ofNat (2 ^ bits)
    Even (half + half).toNat ∧ (half + half).toNat.size = bits + 2 := by
  intro half
  have hlimit : 2 ^ (bits + 2) ≤ Word.limit := by
    rw [Word.limit_eq_two_pow]
    exact Nat.pow_le_pow_right Nat.two_pos hbits
  have hfour : 2 ^ (bits + 2) = 2 * 2 ^ (bits + 1) := Nat.pow_succ'
  have htwo : 2 ^ (bits + 1) = 2 * 2 ^ bits := Nat.pow_succ'
  have hhalf : half.toNat = r.toNat + 2 ^ bits := by
    rw [Word.toNat_add, Word.toNat_two_pow (by omega), Nat.mod_eq_of_lt (by omega)]
  have hdouble : (half + half).toNat = half.toNat + half.toNat := by
    rw [Word.toNat_add, Nat.mod_eq_of_lt (by omega)]
  constructor
  · exact ⟨_, hdouble⟩
  · apply size_eq_of_pow_le <;> omega

theorem toNat_mul_add_one (hk : 0 < k.toNat) (hq : 0 < q.toNat)
    (hfit : k.toNat.size + q.toNat.size ≤ 8 * Word.width) :
    (k * q + 1).toNat = k.toNat * q.toNat + 1 := by
  have hlt : k.toNat * q.toNat + 1 < Word.limit := by
    rw [Word.limit_eq_two_pow, ← Nat.size_le]
    have hsize := size_mul_add_one hk hq
    omega
  rw [Word.toNat_add, Word.toNat_mul, Word.toNat_one, Nat.mod_add_mod, Nat.mod_eq_of_lt hlt]

/-- **What the search for a modulus finds** passed the test for primes and is one more than a
multiple of `q`; the cofactor is even and has exactly the wanted number of bits. -/
theorem searchModulus_eq_some
    (hbelow : ∀ bound i, 0 < bound.toNat → (draws.below bound i).toNat < bound.toNat)
    (hbits : 2 ≤ bits) (hq : 0 < q.toNat) (hfit : bits + q.toNat.size ≤ 8 * Word.width)
    (h : searchModulus isPrime draws attempts q bits = some (k, p)) :
    isPrime p = true ∧ (Even k.toNat ∧ k.toNat.size = bits) ∧
      p.toNat = k.toNat * q.toNat + 1 := by
  obtain ⟨i, hi⟩ := exists_of_findFirst h
  obtain ⟨bits, rfl⟩ := Nat.exists_eq_add_of_le' hbits
  have hfloor : (Word.ofNat (2 ^ bits)).toNat = 2 ^ bits := Word.toNat_two_pow (by omega)
  have hdraw := hbelow (Word.ofNat (2 ^ bits)) i (by rw [hfloor]; exact Nat.two_pow_pos bits)
  rw [hfloor] at hdraw
  obtain ⟨heven, hsize⟩ := toNat_cofactor hdraw (by omega)
  simp only [Nat.add_sub_cancel] at hi
  split at hi
  · rename_i hprime
    simp only [Option.some.injEq, Prod.mk.injEq] at hi
    obtain ⟨rfl, rfl⟩ := hi
    refine ⟨hprime, ⟨heven, hsize⟩, toNat_mul_add_one (Nat.size_pos.1 ?_) hq ?_⟩
    · omega
    · rwa [hsize]
  · exact nomatch hi

/-- **What the search for a generator finds** is a power to the whole cofactor. -/
theorem searchGenerator_eq_some (hp : 0 < p.toNat) (hk : k.toNat.size = bits)
    (h : searchGenerator draws attempts p k bits = some g) :
    g.toNat ≠ 0 ∧ g.toNat ≠ 1 ∧ ∃ x, g.toNat = x ^ k.toNat % p.toNat := by
  obtain ⟨i, hi⟩ := exists_of_findFirst h
  simp only [Modular.pow_of_lt (Nat.size_le.1 hk.le), Bool.and_eq_true, decide_eq_true_eq] at hi
  split at hi
  · rename_i hne
    obtain rfl := Option.some.inj hi
    have hlt := (Nat.mod_lt ((draws.word i).toNat ^ k.toNat) hp).trans p.toNat_lt
    rw [Word.toNat_ofNat_of_lt hlt]
    exact ⟨hne.2, hne.1, _, rfl⟩
  · exact nomatch hi

/-- A power to the cofactor has a `q`-th power of one, by Fermat's theorem. -/
theorem pow_cofactor_pow_modEq {p k q x : Nat} (hp : p.Prime) (hpk : p = k * q + 1)
    (hne : x ^ k % p ≠ 0) (hk : k ≠ 0) : (x ^ k % p) ^ q ≡ 1 [MOD p] := by
  have := Fact.mk hp
  have hx : (x : ZMod p) ≠ 0 := by
    intro hzero
    rw [ZMod.natCast_eq_zero_iff] at hzero
    exact hne (Nat.mod_eq_zero_of_dvd (dvd_pow hzero hk))
  rw [← ZMod.natCast_eq_natCast_iff]
  calc (((x ^ k % p) ^ q : Nat) : ZMod p) = x ^ (k * q) := by
        rw [Nat.cast_pow, ZMod.natCast_mod, Nat.cast_pow, pow_mul]
    _ = x ^ (p - 1) := by rw [show k * q = p - 1 by omega]
    _ = 1 := ZMod.pow_card_sub_one_eq_one hx
    _ = ((1 : Nat) : ZMod p) := Nat.cast_one.symm

/-- **What the searches find is valid**, so that the check at the end refuses nothing. -/
theorem valid_of_found (hp : p.toNat.Prime) (hq : q.toNat.Prime) (hqsize : 3 ≤ q.toNat.size)
    (hk : Even k.toNat ∧ 0 < k.toNat) (hpk : p.toNat = k.toNat * q.toNat + 1)
    (hg : g.toNat ≠ 0 ∧ g.toNat ≠ 1 ∧ ∃ x, g.toNat = x ^ k.toNat % p.toNat) : Valid p q g := by
  obtain ⟨hzero, hone, x, hx⟩ := hg
  have hfour : 4 ≤ q.toNat := Nat.lt_size.1 hqsize
  have hle : q.toNat ≤ k.toNat * q.toNat := Nat.le_mul_of_pos_left _ hk.2
  exact {
    p_odd := by
      rw [hpk]
      exact (hk.1.mul_right _).add_one
    q_odd := hq.odd_of_ne_two (by omega)
    one_lt_p := hp.one_lt
    one_lt_q := hq.one_lt
    q_lt_p := by omega
    q_dvd := ⟨k.toNat, by rw [hpk, Nat.add_sub_cancel, Nat.mul_comm]⟩
    one_lt_g := by omega
    g_lt_p := by
      rw [hx]
      exact Nat.mod_lt _ hp.pos
    g_pow_q := by
      rw [hx] at hzero ⊢
      exact pow_cofactor_pow_modEq hp hpk hzero hk.2.ne' }

/-! ### The whole search -/

variable {qBits pBits : UInt64} {result : Except GroupError SchnorrGroup}

theorem usableBitLengths_of_le (hq : 3 ≤ qBits.toNat) (hp : qBits.toNat + 3 ≤ pBits.toNat)
    (hmax : pBits.toNat ≤ 8 * Word.width) : usableBitLengths qBits pBits = true := by
  have hwidth : (UInt64.ofNat (8 * Word.width)).toNat = 8 * Word.width := by decide
  have hthree : (3 : UInt64).toNat = 3 := rfl
  have hsum : (qBits + 3).toNat = qBits.toNat + 3 := by
    rw [UInt64.toNat_add, hthree, Nat.mod_eq_of_lt]
    have hlt := pBits.toNat_lt
    omega
  simp only [usableBitLengths, UInt64.lt_iff_toNat_lt, hwidth, hsum, hthree, Bool.not_eq_true',
    Bool.or_eq_false_iff, decide_eq_false_iff_not, not_lt]
  exact ⟨⟨hq, hp⟩, hmax⟩

theorem search_eq_some_iff (h : usableBitLengths qBits pBits = true) :
    search isPrime draws attempts qBits pBits = some result ↔
      ∃ q, draws.prime qBits.toNat = some q ∧
        ∃ k p, searchModulus isPrime draws attempts q (pBits - qBits).toNat = some (k, p) ∧
          ∃ g, searchGenerator draws attempts p k (pBits - qBits).toNat = some g ∧
            ofWords p q g = result := by
  simp [search, h, Option.bind_eq_some_iff]

theorem search_of_le {more : Nat} (h : search isPrime draws attempts qBits pBits = some result)
    (hle : attempts ≤ more) : search isPrime draws more qBits pBits = some result := by
  cases husable : usableBitLengths qBits pBits with
  | false =>
    rw [search_of_not_usable husable] at h ⊢
    exact h
  | true =>
    rw [search_eq_some_iff husable] at h ⊢
    obtain ⟨q, hq, k, p, hmodulus, g, hgenerator, hresult⟩ := h
    exact ⟨q, hq, k, p, findFirst_of_le hmodulus hle, g, findFirst_of_le hgenerator hle, hresult⟩

/-- From some number of attempts on a search has its result, and before it has none. -/
theorem exists_least_attempts (h : search isPrime draws attempts qBits pBits = some result) :
    ∃ least, ∀ attempts, search isPrime draws attempts qBits pBits =
      if least ≤ attempts then some result else none := by
  classical
  have hexists : ∃ n, search isPrime draws n qBits pBits = some result := ⟨attempts, h⟩
  refine ⟨Nat.find hexists, fun n => ?_⟩
  split
  · rename_i hle
    exact search_of_le (Nat.find_spec hexists) hle
  · rename_i hlt
    cases hn : search isPrime draws n qBits pBits with
    | none => rfl
    | some other =>
      -- the later result is the earlier one
      have hsame := search_of_le hn (not_le.1 hlt).le
      rw [Nat.find_spec hexists] at hsame
      exact absurd (hn.trans hsame.symm) (Nat.find_min hexists (not_le.1 hlt))

/-- An order is drawn, and each of the two loops ends after some number of attempts. -/
def LoopsEnd (isPrime : Word → Bool) (draws : Draws) (qBits pBits : Nat) : Prop :=
  ∃ q, draws.prime qBits = some q ∧
    ∃ attempts k p, searchModulus isPrime draws attempts q (pBits - qBits) = some (k, p) ∧
      ∃ attempts, (searchGenerator draws attempts p k (pBits - qBits)).isSome = true

/-- **A search whose loops end gives a group.**  Assume that primes are drawn with the wanted number
of bits, that only primes pass the test for primes, and that numbers are drawn below their bound.
Then for all usable bit lengths and all draws on which the loops end, some number of attempts gives
a group, and any larger number gives the same one.  Its order is the drawn prime, and its modulus is
`k * q + 1` for an even cofactor `k` of exactly the remaining bits, computed without a carry out of
the word.  The numbers of bits are the wanted ones, up to one bit of the modulus, and the generator
has the multiplicative order `q`. -/
theorem search_usable (isPrime : Word → Bool) (draws : Draws) (qBits pBits : UInt64)
    (hprime : ∀ bits q, draws.prime bits = some q → q.toNat.Prime ∧ q.toNat.size = bits)
    (hisPrime : ∀ p, isPrime p = true → p.toNat.Prime)
    (hbelow : ∀ bound i, 0 < bound.toNat → (draws.below bound i).toNat < bound.toNat)
    (hq : 3 ≤ qBits.toNat) (hp : qBits.toNat + 3 ≤ pBits.toNat) (hmax : pBits.toNat ≤ 4096)
    (hends : LoopsEnd isPrime draws qBits.toNat pBits.toNat) :
    ∃ (G : SchnorrGroup) (k : Word),
      (∃ least, ∀ attempts, search isPrime draws attempts qBits pBits =
        if least ≤ attempts then some (.ok G) else none) ∧
      draws.prime qBits.toNat = some G.q ∧
      (∃ attempts, searchModulus isPrime draws attempts G.q (pBits.toNat - qBits.toNat) =
        some (k, G.p)) ∧
      (Even k.toNat ∧ k.toNat.size = pBits.toNat - qBits.toNat) ∧
      (k.toNat * G.q.toNat + 1 < Word.limit ∧ G.p.toNat = k.toNat * G.q.toNat + 1) ∧
      G.q.toNat.size = qBits.toNat ∧
      (G.p.toNat.size = pBits.toNat ∨ G.p.toNat.size = pBits.toNat - 1) ∧
      orderOf (G.g.toNat : ZMod G.p.toNat) = G.q.toNat := by
  obtain ⟨q, hdraw, m, k, p, hmodulus, n, hsome⟩ := hends
  obtain ⟨g, hgenerator⟩ := Option.isSome_iff_exists.1 hsome
  obtain ⟨hqprime, hqsize⟩ := hprime _ _ hdraw
  have hfit : pBits.toNat - qBits.toNat + q.toNat.size ≤ 8 * Word.width := by
    rw [hqsize, Word.width]
    omega
  obtain ⟨hpass, ⟨heven, hksize⟩, hpk⟩ :=
    searchModulus_eq_some hbelow (by omega) hqprime.pos hfit hmodulus
  have hpprime := hisPrime _ hpass
  have hkpos : 0 < k.toNat := Nat.size_pos.1 (by omega)
  have hvalid := valid_of_found hpprime hqprime (by omega) ⟨heven, hkpos⟩ hpk
    (searchGenerator_eq_some hpprime.pos hksize hgenerator)
  -- each loop ends within the larger number of attempts
  have hbits : (pBits - qBits).toNat = pBits.toNat - qBits.toNat :=
    UInt64.toNat_sub_of_le _ _ (UInt64.le_iff_toNat_le.2 (by omega))
  rw [← hbits] at hmodulus hgenerator
  have hsearch := (search_eq_some_iff (usableBitLengths_of_le hq hp hmax)).2
    ⟨q, hdraw, k, p, findFirst_of_le hmodulus (le_max_left m n), g,
      findFirst_of_le hgenerator (le_max_right m n), ofWords_of_valid hvalid⟩
  rw [hbits] at hmodulus
  have hpsize := size_mul_add_one hkpos hqprime.pos
  rw [← hpk, hksize, hqsize, Nat.sub_add_cancel (by omega)] at hpsize
  exact ⟨hvalid.group, k, exists_least_attempts hsearch, hdraw, ⟨m, hmodulus⟩, ⟨heven, hksize⟩,
    ⟨hpk.symm.trans_lt p.toNat_lt, hpk⟩, hqsize, hpsize.imp_right Nat.eq_sub_of_add_eq,
    orderOf_g hqprime⟩

/-- Numbers of 3 and 6 bits from the numbers in order.  The first cofactor is refused, as 21 is not
prime, and so are the powers of zero and one; the group of order 5 modulo 31 is found. -/
theorem search_usable_small :
    let draws : Draws :=
      { prime := fun bits => if bits = 3 then some ⟨5, Word.lt_limit_of_lt (by decide)⟩ else none
        below := fun bound i => Word.ofNat (i % bound.toNat)
        word := Word.ofNat }
    let isPrime : Word → Bool := fun p => p.toNat.Prime
    LoopsEnd isPrime draws 3 6 ∧
      ∃ (G : SchnorrGroup) (least : Nat),
        (∀ attempts, search isPrime draws attempts 3 6 =
          if least ≤ attempts then some (.ok G) else none) ∧
        (G.p.toNat.size = 6 ∨ G.p.toNat.size = 5) ∧
        orderOf (G.g.toNat : ZMod G.p.toNat) = G.q.toNat := by
  intro draws isPrime
  have hends : LoopsEnd isPrime draws 3 6 :=
    ⟨⟨5, Word.lt_limit_of_lt (by decide)⟩, rfl, 2, Word.ofNat 6, Word.ofNat 31,
      by decide +kernel, 3, by decide +kernel⟩
  have hprime : ∀ bits q, draws.prime bits = some q → q.toNat.Prime ∧ q.toNat.size = bits := by
    intro bits q h
    simp only [draws] at h
    split at h
    · rename_i hbits
      obtain rfl := Option.some.inj h
      rw [hbits]
      exact ⟨by decide, by decide⟩
    · exact nomatch h
  have hbelow : ∀ bound i, 0 < bound.toNat → (draws.below bound i).toNat < bound.toNat := by
    intro bound i hbound
    have hlt := Nat.mod_lt i hbound
    simp only [draws]
    rwa [Word.toNat_ofNat_of_lt (hlt.trans bound.toNat_lt)]
  obtain ⟨G, k, ⟨least, hleast⟩, -, -, -, -, -, hpsize, horder⟩ :=
    search_usable isPrime draws 3 6 hprime (fun p h => of_decide_eq_true h) hbelow
      (by decide) (by decide) (by decide) hends
  exact ⟨hends, G, least, hleast, hpsize, horder⟩

end SchnorrGroup

end BallotProof
