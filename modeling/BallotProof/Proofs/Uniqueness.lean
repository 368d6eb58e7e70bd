import BallotProof.Proofs.Equations

/-!
# What a passing transcript determines

The equations of a transcript tie its fields to each other, to the ciphertext, to the key and to
the plaintext.  If all but one of these are given, the last one is determined, apart from the cases
in which it has the exponent zero.  The key may be any word: only its power to the response enters
the equations, and that power is a member.

* `Transcript.Passes.exists_members` : the two equations for an arbitrary key.
* `Transcript.Passes.eq_of_challenge` : **unique responses.**  A commitment and a challenge leave
  one response.
* `Transcript.Passes.eq_of_answer` : challenge and response leave one commitment.
* `Transcript.Passes.ciphertext_eq` : a challenge that is not zero leaves one ciphertext.
* `Transcript.Passes.congr_key`, `Transcript.Passes.congr_plaintext` : when a transcript passes for
  another key or for another plaintext as well.
-/

namespace BallotProof

open SchnorrGroup

variable {G : SchnorrGroup} {x x' : Ciphertext} {key key' : Element} {α β κ κ' : G.Members}
  {m m' : Nat}

namespace Transcript

variable {t t' : Transcript}

/-! ### The equations for an arbitrary key -/

/-- The second equation determines the power of the key, which may be any word. -/
theorem betaHolds_iff_value {b : G.Members} (hβ : x.beta = G.element β) (hb : t.b = G.element b)
    (hv : t.v.toNat < G.q.toNat) :
    t.betaHolds G x key m = true ↔
      (key.toNat : ZMod G.p.toNat) ^ t.v.toNat =
        (b + G.exponent t.c • β - (G.exponent t.c * m) • G.base).value := by
  have hshift : (G.g.toNat : ZMod G.p.toNat) ^ (t.c.toNat * m % G.q.toNat) =
      ((G.exponent t.c * m) • G.base).value := by
    rw [← value_member G.g_pow_q, exponent, ← Nat.cast_mul]
    exact value_pow_mod _ _
  have hpow : β.value ^ (t.c.toNat % G.q.toNat) = (G.exponent t.c • β).value := value_pow_mod _ _
  rw [betaHolds_iff, ← ZMod.natCast_eq_natCast_iff', Nat.mod_eq_of_lt hv, Nat.cast_mul,
    Nat.cast_mul, Nat.cast_pow, Nat.cast_pow, Nat.cast_pow, hshift, hβ, hb, cast_toNat_element,
    cast_toNat_element, hpow, ← value_add, value_mul_eq_iff]

theorem Passes.exists_members (hα : x.alpha = G.element α) (hβ : x.beta = G.element β)
    (h : t.Passes G x key m) :
    ∃ a b : G.Members, (t.a = G.element a ∧ t.b = G.element b) ∧
      G.exponent t.v • G.base = a + G.exponent t.c • α ∧
        (key.toNat : ZMod G.p.toNat) ^ t.v.toNat =
          (b + G.exponent t.c • β - (G.exponent t.c * m) • G.base).value := by
  obtain ⟨a, ha⟩ := isMember_iff_exists.1 h.a_member
  obtain ⟨b, hb⟩ := isMember_iff_exists.1 h.b_member
  have hv := isReduced_iff.1 h.v_reduced
  exact ⟨a, b, ⟨ha, hb⟩, (alphaHolds_element_iff hα ha).1 h.alpha,
    (betaHolds_iff_value hβ hb hv).1 h.beta⟩

/-! ### One field from the others -/

/-- **Unique responses.**  A commitment and a challenge leave one response, whatever the key and the
plaintext. -/
theorem Passes.eq_of_challenge (hq : G.q.toNat.Prime) (hα : x.alpha = G.element α)
    (h : t.Passes G x key m) (h' : t'.Passes G x key' m')
    (hcommit : t.toCommitment = t'.toCommitment) (hc : t.c = t'.c) : t = t' := by
  obtain ⟨a, ha⟩ := isMember_iff_exists.1 h.a_member
  have ha' : t'.a = G.element a := by rw [← hcommit, ha]
  have eα := (alphaHolds_element_iff hα ha).1 h.alpha
  have eα' := (alphaHolds_element_iff hα ha').1 h'.alpha
  have hv : G.exponent t.v = G.exponent t'.v := by
    rw [← smul_base_inj hq, eα, eα', hc]
  refine Transcript.ext (congrArg Commitment.a hcommit) (congrArg Commitment.b hcommit) hc ?_
  exact scalar_ext (isReduced_iff.1 h.v_reduced) (isReduced_iff.1 h'.v_reduced) hv

theorem Passes.eq_of_answer (hα : x.alpha = G.element α) (hβ : x.beta = G.element β)
    (h : t.Passes G x key m) (h' : t'.Passes G x key m) (hc : t.c = t'.c) (hv : t.v = t'.v) :
    t = t' := by
  obtain ⟨a, b, ⟨ha, hb⟩, eα, eβ⟩ := h.exists_members hα hβ
  obtain ⟨a', b', ⟨ha', hb'⟩, eα', eβ'⟩ := h'.exists_members hα hβ
  have haa : a = a' := by
    rw [← hc, ← hv, eα] at eα'
    exact add_right_cancel eα'
  have hbb : b = b' := by
    rw [← hc, ← hv, eβ] at eβ'
    exact add_right_cancel (sub_left_inj.1 (value_injective eβ'))
  refine Transcript.ext ?_ ?_ hc hv
  · rw [ha, ha', haa]
  · rw [hb, hb', hbb]

/-! ### Other statements -/

theorem Passes.ciphertext_eq (hq : G.q.toNat.Prime)
    (hx : G.isMember x.alpha = true ∧ G.isMember x.beta = true)
    (hx' : G.isMember x'.alpha = true ∧ G.isMember x'.beta = true)
    (h : t.Passes G x key m) (h' : t.Passes G x' key m) (hc : G.exponent t.c ≠ 0) : x = x' := by
  obtain ⟨α, β, hα, hβ⟩ := Ciphertext.exists_members hx
  obtain ⟨α', β', hα', hβ'⟩ := Ciphertext.exists_members hx'
  obtain ⟨a, b, ⟨ha, hb⟩, eα, eβ⟩ := h.exists_members hα hβ
  obtain ⟨a', b', ⟨ha', hb'⟩, eα', eβ'⟩ := h'.exists_members hα' hβ'
  obtain rfl : a = a' := element_injective (ha.symm.trans ha')
  obtain rfl : b = b' := element_injective (hb.symm.trans hb')
  have hαα : α = α' := by
    rw [eα] at eα'
    exact (smul_left_inj_of_ne_zero hq hc).1 (add_left_cancel eα')
  have hββ : β = β' := by
    rw [eβ] at eβ'
    have hsum := sub_left_inj.1 (value_injective eβ')
    exact (smul_left_inj_of_ne_zero hq hc).1 (add_left_cancel hsum)
  exact Ciphertext.ext (by rw [hα, hα', hαα]) (by rw [hβ, hβ', hββ])

/-- Key and plaintext enter the second equation only. -/
theorem Passes.iff_betaHolds (h : t.Passes G x key m) :
    t.Passes G x key' m' ↔ t.betaHolds G x key' m' = true :=
  ⟨fun h' => h'.beta,
    fun hβ => ⟨h.a_member, h.b_member, h.c_reduced, h.v_reduced, h.alpha, hβ⟩⟩

theorem Passes.congr_key (hβ : x.beta = G.element β) (h : t.Passes G x (G.element κ) m) :
    t.Passes G x (G.element κ') m ↔ G.exponent t.v • κ = G.exponent t.v • κ' := by
  obtain ⟨b, hb⟩ := isMember_iff_exists.1 h.b_member
  have eβ := (betaHolds_element_iff hβ hb).1 h.beta
  rw [h.iff_betaHolds, betaHolds_element_iff hβ hb, ← eβ, add_right_inj]
  exact eq_comm

theorem Passes.congr_plaintext (hq : G.q.toNat.Prime) (hβ : x.beta = G.element β)
    (h : t.Passes G x key m) (m' : Nat) :
    t.Passes G x key m' ↔ G.exponent t.c * m = G.exponent t.c * m' := by
  obtain ⟨b, hb⟩ := isMember_iff_exists.1 h.b_member
  have hv := isReduced_iff.1 h.v_reduced
  have eβ := (betaHolds_iff_value hβ hb hv).1 h.beta
  rw [h.iff_betaHolds, betaHolds_iff_value hβ hb hv, eβ, ← smul_base_inj hq]
  constructor
  · exact fun heq => sub_right_inj.1 (value_injective heq)
  · intro heq
    rw [heq]

end Transcript

end BallotProof
