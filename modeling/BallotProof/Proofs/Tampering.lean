import BallotProof.Proofs.Malleability

/-!
# Tampering is noticed

Three ways to alter one field of an accepted proof, in a group of prime order: write another
representative of the same class, take a neighbour, or take the opposite.  Moduli are odd, so a word
is never its own complement, and of all scalars only zero is its own opposite.

* `Word.add_ne_self`, `Word.sub_ne_self`, `SchnorrGroup.prod_generator_ne`,
  `SchnorrGroup.add_one_ne` : alterations that never leave a value as it is.
* `SchnorrGroup.neg_eq_self_iff` : one that leaves zero as it is.
* `Proof.pinned_of_isValid` : no field of an accepted proof of either kind can be changed, except
  for the claimed plaintext.
* `Proof.isValid_altered` : **an altered proof is refused**, unless nothing was altered.
-/

namespace BallotProof

open SchnorrGroup

variable {H : HashFunction} {G : SchnorrGroup} {x : Ciphertext} {key : Element}

/-! ### Altered values -/

theorem Word.add_ne_self {a b : Word} (hb : 0 < b.toNat) : a + b ≠ a := by
  intro h
  have hsum := congrArg Word.toNat h
  have ha := a.toNat_lt
  have hlt := b.toNat_lt
  rw [Word.toNat_add] at hsum
  rcases Nat.lt_or_ge (a.toNat + b.toNat) Word.limit with hfit | hover
  · rw [Nat.mod_eq_of_lt hfit] at hsum
    omega
  · rw [Nat.mod_eq_sub_mod hover, Nat.mod_eq_of_lt (by omega)] at hsum
    omega

/-- Two to the number of bits is even, so a difference keeps its parity. -/
theorem Word.sub_ne_self {a b : Word} (hodd : a.toNat % 2 = 1) : a - b ≠ b := by
  intro h
  have hdifference := congrArg (fun w : Word => w.toNat % 2) h
  have hlimit : 2 ∣ Word.limit := by
    rw [Word.limit_eq_two_pow]
    exact dvd_pow_self 2 (by decide)
  have hb := b.toNat_lt
  simp only [Word.toNat_sub, Nat.mod_mod_of_dvd _ hlimit] at hdifference
  omega

namespace SchnorrGroup

theorem prod_generator_ne {y : Element} (hy : G.isMember y = true) :
    G.prod [y, G.generator] ≠ y := by
  obtain ⟨η, rfl⟩ := isMember_iff_exists.1 hy
  rw [generator_eq, prod_element_pair, ne_eq, element_inj, add_eq_left]
  exact base_ne_zero

theorem add_one_ne (c : Scalar) : G.add c 1 ≠ c := by
  intro h
  have hone : (1 : Scalar).toNat = 1 := Word.toNat_one
  have hsum := toNat_add (G := G) c 1
  have hlt := add_lt (G := G) c 1
  have hq := G.one_lt_q
  rw [h] at hlt
  rw [h, hone] at hsum
  rcases Nat.lt_or_ge (c.toNat + 1) G.q.toNat with hfit | hover
  · rw [Nat.mod_eq_of_lt hfit] at hsum
    omega
  · rw [Nat.mod_eq_sub_mod hover, Nat.mod_eq_of_lt (by omega)] at hsum
    omega

/-- The opposite of a scalar that is not zero makes up the order with it, which is odd. -/
theorem neg_eq_self_iff {c : Scalar} : G.neg c = c ↔ c = 0 := by
  have hneg := toNat_neg (G := G) c
  constructor
  · intro h
    have hlt := neg_lt (G := G) c
    have hodd := G.q_odd
    rw [h] at hneg hlt
    by_contra hne
    have hpos : 0 < c.toNat := Nat.pos_of_ne_zero fun hzero => hne (Scalar.eq_iff.2 hzero)
    rw [← Int.add_emod_right, Int.emod_eq_of_lt (by omega) (by omega)] at hneg
    omega
  · rintro rfl
    rw [toNat_zero, Nat.cast_zero, neg_zero, Int.zero_emod] at hneg
    exact Scalar.eq_iff.2 (Int.natCast_eq_zero.1 hneg)

end SchnorrGroup

/-! ### Altered fields -/

namespace Slot

/-- The element in the field, if it is one, is a member of the group. -/
def HoldsMember (G : SchnorrGroup) : Slot → Prop
  | .element value _ => G.isMember value = true
  | _ => True

variable {valid : Proof → Prop} {plaintexts : Set Int64} {slot : Slot} {altered : Proof}

theorem Pinned.not_valid_shift (h : slot.Pinned valid plaintexts)
    (hshift : slot.shift G = some altered) : ¬ valid altered := by
  cases slot with
  | element value put =>
    obtain rfl := Option.some.inj hshift
    rw [h]
    exact fun heq => Word.add_ne_self p_pos (congrArg Element.toWord heq)
  | scalar value put =>
    obtain rfl := Option.some.inj hshift
    rw [h]
    exact fun heq => Word.add_ne_self q_pos (congrArg Scalar.toWord heq)
  | constant put => exact nomatch hshift

theorem Pinned.not_valid_bump (h : slot.Pinned valid plaintexts) (hmember : slot.HoldsMember G)
    (hbump : slot.bump G = some altered) : ¬ valid altered := by
  cases slot with
  | element value put =>
    obtain rfl := Option.some.inj hbump
    rw [h]
    exact prod_generator_ne hmember
  | scalar value put =>
    obtain rfl := Option.some.inj hbump
    rw [h]
    exact add_one_ne value
  | constant put => exact nomatch hbump

theorem Pinned.valid_negate_iff (h : slot.Pinned valid plaintexts)
    (hnegate : slot.negate G = some altered) :
    valid altered ↔ ∃ put, slot = .scalar 0 put := by
  cases slot with
  | element value put =>
    obtain rfl := Option.some.inj hnegate
    rw [h]
    refine ⟨fun heq => ?_, fun ⟨_, heq⟩ => nomatch heq⟩
    exact absurd (congrArg Element.toWord heq) (Word.sub_ne_self G.p_odd)
  | scalar value put =>
    obtain rfl := Option.some.inj hnegate
    rw [h, neg_eq_self_iff]
    exact ⟨fun hzero => ⟨put, by rw [hzero]⟩, fun ⟨_, heq⟩ => (Slot.scalar.inj heq).1⟩
  | constant put => exact nomatch hnegate

end Slot

theorem Transcript.holdsMember_of_slot? {t : Transcript} {m : Nat} (h : t.Passes G x key m)
    {put : Transcript → Proof} {letter : Char} {slot : Slot}
    (hslot : t.slot? put letter = some slot) : slot.HoldsMember G := by
  unfold Transcript.slot? at hslot
  split at hslot
  · obtain rfl := Option.some.inj hslot
    exact h.a_member
  · obtain rfl := Option.some.inj hslot
    exact h.b_member
  · obtain rfl := Option.some.inj hslot
    trivial
  · obtain rfl := Option.some.inj hslot
    trivial
  · exact nomatch hslot

theorem DisjunctiveProof.holdsMember_of_isValid {proof : DisjunctiveProof}
    (h : (proof.checks H G x key).isValid = true) {name : String} {slot : Slot}
    (hslot : proof.slot? name = some slot) : slot.HoldsMember G := by
  obtain ⟨-, -, h0, h1⟩ := holds_iff.1 (checks_isValid_iff.1 h)
  unfold DisjunctiveProof.slot? at hslot
  split at hslot
  · exact Transcript.holdsMember_of_slot? h0 hslot
  · exact Transcript.holdsMember_of_slot? h1 hslot
  · exact nomatch hslot

theorem ConstantProof.holdsMember_of_isValid {proof : ConstantProof}
    (h : (proof.checks H G x key).isValid = true) {name : String} {slot : Slot}
    (hslot : proof.slot? name = some slot) : slot.HoldsMember G := by
  obtain ⟨-, -, -, ht⟩ := holds_iff.1 (checks_isValid_iff.1 h)
  unfold ConstantProof.slot? at hslot
  split_ifs at hslot
  · obtain rfl := Option.some.inj hslot
    trivial
  · split at hslot
    · exact Transcript.holdsMember_of_slot? ht hslot
    · exact nomatch hslot

namespace Proof

variable {proof : Proof} {name : String} {slot : Slot}

theorem holdsMember_of_isValid (h : (proof.checks H G x key).isValid = true)
    (hslot : proof.slot? name = some slot) : slot.HoldsMember G :=
  match proof with
  | .disjunctive _ => DisjunctiveProof.holdsMember_of_isValid h hslot
  | .constant _ => ConstantProof.holdsMember_of_isValid h hslot

theorem pinned_of_isValid (hq : G.q.toNat.Prime) (h : (proof.checks H G x key).isValid = true)
    (hslot : proof.slot? name = some slot) :
    ∃ plaintexts, slot.Pinned (fun other => (other.checks H G x key).isValid = true) plaintexts :=
  match proof with
  | .disjunctive _ => ⟨_, DisjunctiveProof.pinned_of_isValid hq h hslot⟩
  | .constant _ => ⟨_, ConstantProof.pinned_of_isValid hq h hslot⟩

/-- **An altered proof is refused.**  For every key and every hash function: in an accepted proof, a
field that is shifted to another representative or bumped to a neighbour is noticed, and so is one
that is negated, unless it is a scalar that is zero. -/
theorem isValid_altered (hq : G.q.toNat.Prime) (h : (proof.checks H G x key).isValid = true)
    (hslot : proof.slot? name = some slot) (altered : Proof) :
    (slot.shift G = some altered → (altered.checks H G x key).isValid = false) ∧
      (slot.bump G = some altered → (altered.checks H G x key).isValid = false) ∧
      (slot.negate G = some altered →
        ((altered.checks H G x key).isValid = true ↔ ∃ put, slot = .scalar 0 put)) := by
  obtain ⟨_, hpinned⟩ := pinned_of_isValid hq h hslot
  refine ⟨fun hshift => ?_, fun hbump => ?_, fun hnegate => ?_⟩
  · exact eq_false_of_ne_true (hpinned.not_valid_shift hshift)
  · exact eq_false_of_ne_true (hpinned.not_valid_bump (holdsMember_of_isValid h hslot) hbump)
  · exact hpinned.valid_negate_iff hnegate

end Proof

end BallotProof
