import BallotProof.Proofs.Subgroup
import Mathlib.Data.Nat.Size

/-!
# What a group is checked for

Three words are a group if they pass seven checks, and otherwise the first check that they do not
pass gives the error.

* `SchnorrGroup.Valid` collects what is asked of the words, `SchnorrGroup.defects` lists what can be
  wrong with them, and `SchnorrGroup.firstDefect?` is the first that applies.
* `SchnorrGroup.exists_ofWords_iff`, `SchnorrGroup.ofWords_eq_error_iff` : **the check decides
  `Valid`, and its error is the first defect.**
* `SchnorrGroup.ofWords_exact` adds what every group has: `3 ≤ q`, `2 * q < p`, a generator whose
  order is not one and divides `q`, and as many exponent bits as `q` has digits.
-/

namespace BallotProof

namespace SchnorrGroup

variable {p q g : Word} {G : SchnorrGroup} {e : GroupError}

/-! ### Verdict and error -/

/-- What is asked of three words. -/
structure Valid (p q g : Word) : Prop where
  p_odd : Odd p.toNat
  q_odd : Odd q.toNat
  one_lt_p : 1 < p.toNat
  one_lt_q : 1 < q.toNat
  q_lt_p : q.toNat < p.toNat
  q_dvd : q.toNat ∣ p.toNat - 1
  one_lt_g : 1 < g.toNat
  g_lt_p : g.toNat < p.toNat
  g_pow_q : g.toNat ^ q.toNat ≡ 1 [MOD p.toNat]

/-- What can be wrong with three words, each with its error, in the order of the reports. -/
def defects (p q g : Word) : List (Bool × GroupError) :=
  [(p.toNat ≤ 1, .modulusTooSmall),
    (Even p.toNat, .evenModulus),
    (q.toNat ≤ 1, .modulusTooSmall),
    (Even q.toNat, .evenModulus),
    (p.toNat ≤ q.toNat, .subgroupTooLarge),
    (¬ q.toNat ∣ p.toNat - 1, .subgroupOrderMismatch),
    (¬ (1 < g.toNat ∧ g.toNat < p.toNat ∧ g.toNat ^ q.toNat ≡ 1 [MOD p.toNat]),
      .invalidGenerator)]

/-- The error of the first defect. -/
def firstDefect? (p q g : Word) : Option GroupError :=
  ((defects p q g).find? fun defect => defect.1).map fun defect => defect.2

theorem firstDefect?_eq_none_iff : firstDefect? p q g = none ↔ Valid p q g := by
  simp only [firstDefect?, defects, Option.map_eq_none_iff, List.find?_eq_none,
    List.forall_mem_cons, decide_eq_true_eq, not_le, Nat.not_even_iff_odd, not_not]
  constructor
  · rintro ⟨hp, hpodd, hq, hqodd, hlt, hdvd, ⟨hg, hgp, hpow⟩, -⟩
    exact ⟨hpodd, hqodd, hp, hq, hlt, hdvd, hg, hgp, hpow⟩
  · intro h
    exact ⟨h.one_lt_p, h.p_odd, h.one_lt_q, h.q_odd, h.q_lt_p, h.q_dvd,
      ⟨h.one_lt_g, h.g_lt_p, h.g_pow_q⟩, nofun⟩

/-- The group of valid words. -/
def Valid.group (h : Valid p q g) : SchnorrGroup where
  p := p
  q := q
  g := g
  p_odd := Nat.odd_iff.1 h.p_odd
  q_odd := Nat.odd_iff.1 h.q_odd
  one_lt_q := h.one_lt_q
  q_lt_p := h.q_lt_p
  q_dvd := Nat.mod_eq_zero_of_dvd h.q_dvd
  one_lt_g := h.one_lt_g
  g_lt_p := h.g_lt_p
  g_pow_q := by
    have hpow := h.g_pow_q
    rwa [Nat.ModEq, Nat.mod_eq_of_lt h.one_lt_p] at hpow

theorem valid (G : SchnorrGroup) : Valid G.p G.q G.g where
  p_odd := Nat.odd_iff.2 G.p_odd
  q_odd := Nat.odd_iff.2 G.q_odd
  one_lt_p := G.one_lt_p
  one_lt_q := G.one_lt_q
  q_lt_p := G.q_lt_p
  q_dvd := Nat.dvd_of_mod_eq_zero G.q_dvd
  one_lt_g := G.one_lt_g
  g_lt_p := G.g_lt_p
  g_pow_q := modEq_one_iff.2 G.g_pow_q

theorem ofWords_of_valid (h : Valid p q g) : ofWords p q g = .ok h.group :=
  ofWords_self (G := h.group)

theorem find?_defect_cons {b : Bool} {e' : GroupError} {rest : List (Bool × GroupError)} :
    ((((b, e') :: rest).find? fun defect => defect.1).map fun defect => defect.2) =
      if b then some e' else (rest.find? fun defect => defect.1).map fun defect => defect.2 := by
  cases b <;> rfl

/-- A check that comes first in both decides both, and what follows is compared where it passes. -/
theorem dite_eq_error {c : Prop} [Decidable c] {e' : GroupError} {others : Option GroupError}
    {rest : ¬c → Except GroupError SchnorrGroup} (h : (if c then some e' else others) = some e)
    (hrest : ∀ hc : ¬c, others = some e → rest hc = .error e) :
    (if hc : c then .error e' else rest hc) = .error e := by
  by_cases hc : c
  · rw [if_pos hc] at h
    rw [dif_pos hc, Option.some.inj h]
  · rw [if_neg hc] at h
    rw [dif_neg hc, hrest hc h]

theorem ofWords_of_firstDefect? (h : firstDefect? p q g = some e) :
    ofWords p q g = .error e := by
  simp only [firstDefect?, defects, find?_defect_cons, decide_eq_true_eq, Nat.even_iff,
    Nat.dvd_iff_mod_eq_zero, List.find?_nil, Option.map_none] at h
  refine dite_eq_error h fun hp h => dite_eq_error h fun _ h => dite_eq_error h fun _ h =>
    dite_eq_error h fun _ h => dite_eq_error h fun _ h => dite_eq_error h fun _ h => ?_
  -- what is left is one defect in the list, but three checks
  obtain ⟨hgenerator, rfl⟩ : ¬ (1 < g.toNat ∧ g.toNat < p.toNat ∧
      g.toNat ^ q.toNat ≡ 1 [MOD p.toNat]) ∧ .invalidGenerator = e := by simpa using h
  by_cases hg : g.toNat ≤ 1
  · rw [dif_pos hg]
  by_cases hgp : p.toNat ≤ g.toNat
  · rw [dif_neg hg, dif_pos hgp]
  rw [dif_neg hg, dif_neg hgp, dif_pos]
  intro hone
  rw [Modular.pow_of_lt (Modular.lt_two_pow_bitLength _)] at hone
  refine hgenerator ⟨not_le.1 hg, not_le.1 hgp, ?_⟩
  rw [Nat.ModEq, hone, Nat.mod_eq_of_lt (not_le.1 hp)]

theorem ofWords_eq_ok_iff : ofWords p q g = .ok G ↔ G.p = p ∧ G.q = q ∧ G.g = g := by
  constructor
  · intro h
    cases hdefect : firstDefect? p q g with
    | none =>
      rw [ofWords_of_valid (firstDefect?_eq_none_iff.1 hdefect), Except.ok.injEq] at h
      rw [← h]
      exact ⟨rfl, rfl, rfl⟩
    | some e =>
      rw [ofWords_of_firstDefect? hdefect] at h
      exact nomatch h
  · rintro ⟨rfl, rfl, rfl⟩
    exact ofWords_self

/-- **The check decides whether the words are valid.** -/
theorem exists_ofWords_iff : (∃ G, ofWords p q g = .ok G) ↔ Valid p q g := by
  constructor
  · rintro ⟨G, hG⟩
    obtain ⟨rfl, rfl, rfl⟩ := ofWords_eq_ok_iff.1 hG
    exact G.valid
  · intro h
    exact ⟨h.group, ofWords_of_valid h⟩

/-- **The error is the first defect.** -/
theorem ofWords_eq_error_iff : ofWords p q g = .error e ↔ firstDefect? p q g = some e := by
  constructor
  · intro h
    cases hdefect : firstDefect? p q g with
    | none =>
      rw [ofWords_of_valid (firstDefect?_eq_none_iff.1 hdefect)] at h
      exact nomatch h
    | some e' =>
      rw [ofWords_of_firstDefect? hdefect, Except.error.injEq] at h
      rw [h]
  · exact ofWords_of_firstDefect?

/-! ### What every group has -/

theorem three_le_q : 3 ≤ G.q.toNat := by
  have hodd := G.q_odd
  have hone := G.one_lt_q
  omega

/-- The cofactor is even, as `p` and `q` are odd. -/
theorem two_mul_q_lt_p : 2 * G.q.toNat < G.p.toNat := by
  obtain ⟨k, hk⟩ := G.valid.q_dvd
  have hpodd := G.valid.p_odd
  have hlt := G.one_lt_p
  have heven : Even (G.q.toNat * k) := by
    rw [← hk]
    exact Nat.Odd.sub_odd hpodd odd_one
  rcases Nat.even_mul.1 heven with hq | ⟨j, rfl⟩
  · exact absurd hq (Nat.not_even_iff_odd.2 G.valid.q_odd)
  · have hj : 0 < j := by
      rcases Nat.eq_zero_or_pos j with rfl | hj
      · omega
      · exact hj
    have hle : G.q.toNat * 2 ≤ G.q.toNat * (j + j) := Nat.mul_le_mul_left _ (by omega)
    omega

/-- The bits that are scanned of an exponent are the binary digits of the order. -/
theorem qBits_eq_size : G.qBits = G.q.toNat.size := by
  have hlow := Modular.two_pow_le_of_bitLength G.q_pos.ne'
  apply le_antisymm
  · exact Nat.le_of_pred_lt (Nat.lt_size.2 hlow)
  · exact Nat.size_le.2 G.q_lt_two_pow

theorem two_pow_le_q : 2 ^ (G.qBits - 1) ≤ G.q.toNat :=
  Modular.two_pow_le_of_bitLength G.q_pos.ne'

/-- **The check of a group is exact.**  For all three words it succeeds if and only if they are
valid, and otherwise it reports the first defect.  The group that it gives has the three words, and
its order is at least three and less than half its modulus.  The generator is invertible, and its
multiplicative order is not one and divides `q`, so that it is `q` if `q` is prime.  Exponents are
scanned up to the last binary digit of `q` and no further. -/
theorem ofWords_exact (p q g : Word) :
    ((∃ G, ofWords p q g = .ok G) ↔ Valid p q g) ∧
    (∀ e, ofWords p q g = .error e ↔ firstDefect? p q g = some e) ∧
    ∀ G, ofWords p q g = .ok G →
      (G.p = p ∧ G.q = q ∧ G.g = g) ∧
      (3 ≤ q.toNat ∧ 2 * q.toNat + 1 ≤ p.toNat) ∧
      (IsUnit (g.toNat : ZMod p.toNat) ∧ 1 < orderOf (g.toNat : ZMod p.toNat) ∧
        orderOf (g.toNat : ZMod p.toNat) ∣ q.toNat ∧
        (q.toNat.Prime → orderOf (g.toNat : ZMod p.toNat) = q.toNat)) ∧
      G.qBits = q.toNat.size ∧ 2 ^ (G.qBits - 1) ≤ q.toNat ∧ q.toNat < 2 ^ G.qBits := by
  refine ⟨exists_ofWords_iff, fun e => ofWords_eq_error_iff, ?_⟩
  intro G hG
  obtain ⟨rfl, rfl, rfl⟩ := ofWords_eq_ok_iff.1 hG
  exact ⟨⟨rfl, rfl, rfl⟩, ⟨three_le_q, two_mul_q_lt_p⟩,
    ⟨isUnit_value G.base, one_lt_orderOf_g, orderOf_g_dvd, orderOf_g⟩,
    qBits_eq_size, two_pow_le_q, q_lt_two_pow⟩

/-- The squares modulo 23, and the same words with modulus and order exchanged: of three defects,
the first is reported. -/
theorem ofWords_exact_small :
    ofWords small.p small.q small.g = .ok small ∧
      orderOf (small.g.toNat : ZMod small.p.toNat) = small.q.toNat ∧ small.qBits = 4 ∧
      ofWords small.q small.p small.g = .error .subgroupTooLarge := by
  obtain ⟨-, -, hsmall⟩ := ofWords_exact small.p small.q small.g
  obtain ⟨-, -, ⟨-, -, -, horder⟩, -⟩ := hsmall small ofWords_self
  obtain ⟨-, hexchanged, -⟩ := ofWords_exact small.q small.p small.g
  exact ⟨ofWords_self, horder small_q_prime, by decide, (hexchanged _).2 (by decide)⟩

end SchnorrGroup

end BallotProof
