import BallotProof.Ciphertext
import BallotProof.Proofs.Members

/-!
# Ciphertexts over members

A ciphertext that was made under the key `κ` is given by the classes of its plaintext and of its
nonce: it is the pair `r • base` and `m • base + r • κ`.  Adding ciphertexts adds both classes, and
the secret key takes the nonce away.

* `Ciphertext.ofClasses` is the ciphertext of two classes; `Ciphertext.encrypt?_element` says that
  encryption makes it.
* `Ciphertext.exists_members` : whatever passes the membership test consists of members.
* `Ciphertext.aggregate_ofClasses` : **an aggregate hides the sum of the plaintexts under the sum of
  the nonces**, for any number of ciphertexts.
* `SchnorrGroup.discreteLog?_element` : for prime `q` the search finds the class of the exponent.
* `Ciphertext.decrypt?_ofClasses` : **decryption finds the class of the plaintext** if it is below
  the bound.
-/

namespace BallotProof

variable {G : SchnorrGroup}

theorem KeyPair.publicKey_eq {s : Scalar} {keys : KeyPair} (h : KeyPair.ofSecret G s = .ok keys) :
    keys.publicKey = G.element (G.exponent s • G.base) := by
  obtain ⟨-, -, rfl⟩ := KeyPair.ofSecret_eq_ok_iff.1 h
  exact SchnorrGroup.generatorPow_eq s

namespace SchnorrGroup

theorem g_pow_mod_eq_iff {k : Nat} {a : G.Members} :
    G.g.toNat ^ k % G.p.toNat = (G.element a).toNat % G.p.toNat ↔
      (k : ZMod G.q.toNat) • G.base = a := by
  have hpow : (G.g.toNat ^ k : ZMod G.p.toNat) = ((k : ZMod G.q.toNat) • G.base).value := by
    rw [Nat.cast_smul_eq_nsmul, value_nsmul]
    rfl
  rw [← ZMod.natCast_eq_natCast_iff', Nat.cast_pow, hpow, cast_toNat_element]
  exact ⟨value_injective, fun h => h ▸ rfl⟩

/-- **The search finds the class of the exponent**, if it is below the bound. -/
theorem discreteLog?_element (hq : G.q.toNat.Prime) (m : ZMod G.q.toNat) (bound : Nat) :
    G.discreteLog? (G.element (m • G.base)) bound = if m.val < bound then some m.val else none := by
  -- no smaller exponent gives the member: all of them are congruent to the representative
  have hle : ∀ k : Nat, G.g.toNat ^ k % G.p.toNat = (G.element (m • G.base)).toNat % G.p.toNat →
      m.val ≤ k := by
    intro k hk
    rw [← (smul_base_inj hq).1 (g_pow_mod_eq_iff.1 hk), ZMod.val_natCast]
    exact Nat.mod_le k _
  split_ifs with hbound
  · refine discreteLog?_eq_some_iff.2 ⟨hbound, g_pow_mod_eq_iff.2 ?_, fun k hk heq => ?_⟩
    · rw [ZMod.natCast_zmod_val]
    · exact absurd (hle k heq) (Nat.not_le.2 hk)
  · refine discreteLog?_eq_none_iff.2 fun k hk heq => hbound ?_
    exact Nat.lt_of_le_of_lt (hle k heq) hk

end SchnorrGroup

namespace Ciphertext

open SchnorrGroup

/-- The ciphertext that hides the plaintext `m` with the nonce `r` under the key `κ`. -/
def ofClasses (κ : G.Members) (m r : ZMod G.q.toNat) : Ciphertext where
  alpha := G.element (r • G.base)
  beta := G.element (m • G.base + r • κ)

theorem exists_members {x : Ciphertext}
    (hx : G.isMember x.alpha = true ∧ G.isMember x.beta = true) :
    ∃ α β : G.Members, x.alpha = G.element α ∧ x.beta = G.element β := by
  obtain ⟨α, hα⟩ := isMember_iff_exists.1 hx.1
  obtain ⟨β, hβ⟩ := isMember_iff_exists.1 hx.2
  exact ⟨α, β, hα, hβ⟩

theorem isMember_of_element {x : Ciphertext} {α β : G.Members} (hα : x.alpha = G.element α)
    (hβ : x.beta = G.element β) : G.isMember x.alpha = true ∧ G.isMember x.beta = true := by
  rw [hα, hβ]
  exact ⟨isMember_element α, isMember_element β⟩

theorem eq_ofClasses (κ : G.Members) (m r : Nat) :
    (⟨G.toElement (G.g.toNat ^ r), G.toElement (G.g.toNat ^ m * (G.element κ).toNat ^ r)⟩ :
      Ciphertext) = ofClasses κ m r :=
  Ciphertext.ext (toElement_g_pow r) (toElement_g_pow_mul_pow m r κ)

theorem encrypt?_element (κ : G.Members) (m : Nat) {r : Scalar} (hpos : 0 < r.toNat)
    (hlt : r.toNat < G.q.toNat) :
    encrypt? G m r (G.element κ) = some (ofClasses κ m (G.exponent r)) := by
  have haccept : ¬ (r.toNat = 0 || !G.isReduced r) = true := by
    simp [isReduced_iff.2 hlt, Nat.ne_of_gt hpos]
  rw [encrypt?, if_neg haccept]
  simp only [ofClasses, generatorPow_eq, pow_element, prod_element_pair, exponent_toScalar]

theorem mapM_encrypt?_element (κ : G.Members) {ballots : List (Nat × Scalar)}
    (h : ∀ b ∈ ballots, 0 < b.2.toNat ∧ b.2.toNat < G.q.toNat) :
    (ballots.mapM fun b => encrypt? G b.1 b.2 (G.element κ)) =
      some (ballots.map fun b => ofClasses κ (b.1 : ZMod G.q.toNat) (G.exponent b.2)) := by
  induction ballots with
  | nil => rfl
  | cons b ballots ih =>
    obtain ⟨hpos, hlt⟩ := h b List.mem_cons_self
    have hrest := ih fun b' hb' => h b' (List.mem_cons_of_mem b hb')
    rw [List.mapM_cons, encrypt?_element κ b.1 hpos hlt, hrest]
    rfl

theorem add_ofClasses (κ : G.Members) (m r m' r' : ZMod G.q.toNat) :
    add G (ofClasses κ m r) (ofClasses κ m' r') = ofClasses κ (m + m') (r + r') := by
  simp only [add, ofClasses, prod_element_pair]
  congr 2 <;> module

theorem trivial_eq_ofClasses (κ : G.Members) : trivial = ofClasses κ 0 0 := by
  rw [trivial, ofClasses, zero_smul, zero_smul, add_zero, ← one_eq]

/-- The sum is built up from the left, so it may start anywhere. -/
theorem foldl_add_ofClasses {α : Type} (κ : G.Members) (m r : α → ZMod G.q.toNat)
    (ballots : List α) (m₀ r₀ : ZMod G.q.toNat) :
    (ballots.map fun b => ofClasses κ (m b) (r b)).foldl (add G) (ofClasses κ m₀ r₀) =
      ofClasses κ (m₀ + (ballots.map m).sum) (r₀ + (ballots.map r).sum) := by
  -- the sum so far is again of this form, so it is generalized
  induction ballots generalizing m₀ r₀ with
  | nil => simp
  | cons b ballots ih =>
    rw [List.map_cons, List.foldl_cons, add_ofClasses, ih]
    simp only [List.map_cons, List.sum_cons, add_assoc]

/-- **An aggregate hides the sum of the plaintexts under the sum of the nonces.** -/
theorem aggregate_ofClasses {α : Type} (κ : G.Members) (m r : α → ZMod G.q.toNat)
    (ballots : List α) :
    aggregate G (ballots.map fun b => ofClasses κ (m b) (r b)) =
      ofClasses κ (ballots.map m).sum (ballots.map r).sum := by
  rw [aggregate, trivial_eq_ofClasses κ, foldl_add_ofClasses, zero_add, zero_add]

theorem decryptWithBlinding?_ofClasses (κ : G.Members) (m r : ZMod G.q.toNat) (bound : Nat) :
    (ofClasses κ m r).decryptWithBlinding? G (G.element (r • κ)) bound =
      G.discreteLog? (G.element (m • G.base)) bound := by
  simp only [decryptWithBlinding?, inverse?_element, Option.bind_eq_bind, Option.bind_some,
    ofClasses, prod_element_pair]
  rw [add_neg_cancel_right]

/-- **Decryption finds the class of the plaintext**, if it is below the bound. -/
theorem decrypt?_ofClasses (hq : G.q.toNat.Prime) (s : Scalar) (m r : ZMod G.q.toNat)
    (bound : Nat) :
    (ofClasses (G.exponent s • G.base) m r).decrypt? G s bound =
      if m.val < bound then some m.val else none := by
  have hblinding : G.pow (ofClasses (G.exponent s • G.base) m r).alpha s =
      G.element (r • G.exponent s • G.base) := by
    rw [ofClasses, pow_element, smul_comm]
  rw [decrypt?, hblinding, decryptWithBlinding?_ofClasses, discreteLog?_element hq]

end Ciphertext

end BallotProof
