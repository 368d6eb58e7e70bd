import BallotProof.Proofs.Congruence
import BallotProof.Proofs.FalseClaims

/-!
# What the builders promise for any input

The builders look at nothing that they are given: key and ciphertext may be any words, and the claim
may be false.  Some of what makes a proof pass holds all the same.  The values are reduced, the
challenges add up to the derived one, and the simulated transcript satisfies its equations as soon
as the `q`-th powers of the components of the ciphertext are one modulo `p`.  For this the two
powers of a component, by the opposite of the challenge in the commitment and by the challenge in
the equation, have to cancel; of the key nothing is needed, since it has the same power on both
sides.

* `SchnorrGroup.prod_concat_pow_neg` : the two powers cancel.
* `Transcript.simulate_alphaHolds`, `Transcript.simulate_betaHolds` : **a simulated run satisfies
  its equations** for every key and every plaintext.
* `Transcript.Reduced` : what `Commitment.respond_reduced` and `Transcript.simulate_reduced` say of
  the values.
* `DisjunctiveProof.prove_any_input` : **the promises of the builders.**
-/

namespace BallotProof

open SchnorrGroup

variable {H : HashFunction} {G : SchnorrGroup} {x : Ciphertext} {key : Element}

/-! ### Powers that cancel -/

namespace SchnorrGroup

theorem prod_concat_pow_neg {y : Element} (hy : y.toNat ^ G.q.toNat % G.p.toNat = 1)
    (ws : List Element) (c : Scalar) :
    G.prod [G.prod (ws ++ [G.pow y (G.neg c)]), G.pow y c] = G.prod ws := by
  have hcancel : G.prod [G.pow y (G.neg c), G.pow y c] = 1 :=
    (prod_perm (.swap _ _ _)).trans (prod_pow_neg hy c)
  rw [← prod_concat, List.append_assoc, List.singleton_append, prod_append, hcancel]
  apply Element.ext
  rw [toNat_prod_pair, toNat_one, Nat.mul_one, Nat.mod_eq_of_lt (toNat_prod_lt ws)]

theorem prod_generatorPow (e : Scalar) : G.prod [G.generatorPow e] = G.generatorPow e := by
  apply Element.ext
  rw [toNat_prod, natProd, natProd, Nat.mul_one]
  exact Nat.mod_eq_of_lt (toNat_pow_lt G.generator e)

end SchnorrGroup

/-! ### Runs for any words -/

/-- The values of a transcript are reduced. -/
structure Transcript.Reduced (G : SchnorrGroup) (t : Transcript) : Prop where
  a_lt : t.a.toNat < G.p.toNat
  b_lt : t.b.toNat < G.p.toNat
  c_lt : t.c.toNat < G.q.toNat
  v_lt : t.v.toNat < G.q.toNat

theorem Commitment.respond_reduced (key : Element) (u r : Scalar) {c : Scalar}
    (hc : c.toNat < G.q.toNat) : ((ofNonce G key u).respond G u r c).Reduced G where
  a_lt := toNat_pow_lt _ _
  b_lt := toNat_pow_lt _ _
  c_lt := hc
  v_lt := addMul_lt ..

namespace Transcript

variable {c v : Scalar} {m : Nat}

theorem simulate_reduced (x : Ciphertext) (key : Element) (m : Nat) (hc : c.toNat < G.q.toNat)
    (hv : v.toNat < G.q.toNat) : (simulate G x key m c v).Reduced G where
  a_lt := toNat_prod_lt _
  b_lt := toNat_prod_lt _
  c_lt := hc
  v_lt := hv

/-- **A simulated run satisfies the equation of the nonce** if the `q`-th power of `alpha` is
one. -/
theorem simulate_alphaHolds (hα : x.alpha.toNat ^ G.q.toNat % G.p.toNat = 1) :
    (simulate G x key m c v).alphaHolds G x = true := by
  rw [alphaHolds, decide_eq_true_iff]
  calc G.generatorPow v
      = G.prod [G.generatorPow v] := (prod_generatorPow v).symm
    _ = G.prod [G.prod ([G.generatorPow v] ++ [G.pow x.alpha (G.neg c)]), G.pow x.alpha c] :=
        (prod_concat_pow_neg hα _ c).symm

/-- **A simulated run satisfies the equation of the plaintext** if the `q`-th power of `beta` is
one. -/
theorem simulate_betaHolds (hβ : x.beta.toNat ^ G.q.toNat % G.p.toNat = 1) :
    (simulate G x key m c v).betaHolds G x key m = true := by
  rw [betaHolds, decide_eq_true_iff]
  let blinded := [G.pow key v, G.generatorPow (shift G c m)]
  calc G.prod [G.generatorPow (shift G c m), G.pow key v]
      = G.prod blinded := prod_perm (.swap _ _ _)
    _ = G.prod [G.prod (blinded ++ [G.pow x.beta (G.neg c)]), G.pow x.beta c] :=
        (prod_concat_pow_neg hβ _ c).symm

end Transcript

/-! ### Proofs for any words -/

/-- The equation of the nonce in the transcript of a selection. -/
def DisjunctiveCheck.alphaOf (selected : Bool) : DisjunctiveCheck :=
  if selected then .alphaOne else .alphaZero

namespace DisjunctiveProof

variable {proof : DisjunctiveProof}

theorem holds_alphaOf (c : Scalar) (selected : Bool) :
    proof.holds G c x key (.alphaOf selected) = (proof.branch selected).alphaHolds G x := by
  cases selected <;> rfl

theorem holds_betaOf (c : Scalar) (selected : Bool) :
    proof.holds G c x key (.betaOf selected) =
      (proof.branch selected).betaHolds G x key selected.toNat := by
  cases selected <;> rfl

theorem reduced_of_branches {selected : Bool} (hown : (proof.branch selected).Reduced G)
    (hother : (proof.branch !selected).Reduced G) : proof.zero.Reduced G ∧ proof.one.Reduced G := by
  cases selected with
  | false => exact ⟨hown, hother⟩
  | true => exact ⟨hother, hown⟩

theorem holds_of_simulated {selected : Bool} {c v : Scalar}
    (hsimulated : proof.branch selected = Transcript.simulate G x key selected.toNat c v)
    (hα : x.alpha.toNat ^ G.q.toNat % G.p.toNat = 1)
    (hβ : x.beta.toNat ^ G.q.toNat % G.p.toNat = 1) (challenge : Scalar) :
    proof.holds G challenge x key (.alphaOf selected) = true ∧
      proof.holds G challenge x key (.betaOf selected) = true := by
  rw [holds_alphaOf, holds_betaOf, hsimulated]
  exact ⟨Transcript.simulate_alphaHolds hα, Transcript.simulate_betaHolds hβ⟩

theorem proveSelection_any_input (H : HashFunction) (G : SchnorrGroup) (x : Ciphertext)
    (r : Scalar) (key : Element) (seed : Scalar) (selected : Bool) :
    let proof := proveSelection H G x r key seed selected
    (proof.zero.Reduced G ∧ proof.one.Reduced G) ∧
      proof.derivedChallenge H G x = G.add proof.zero.c proof.one.c ∧
      (x.alpha.toNat ^ G.q.toNat % G.p.toNat = 1 → x.beta.toNat ^ G.q.toNat % G.p.toNat = 1 →
        ∀ name ∈ [(DisjunctiveCheck.alphaOf !selected).name,
            (DisjunctiveCheck.betaOf !selected).name],
          (proof.checks H G x key).outcome? name = some true) := by
  intro proof
  obtain ⟨hsum, hother, hown, hlt⟩ := proveSelection_branches H G x r key seed selected
  have hownReduced : (proof.branch selected).Reduced G := by
    rw [hown]
    exact Commitment.respond_reduced key _ r hlt
  have hotherReduced : (proof.branch !selected).Reduced G := by
    rw [hother]
    exact Transcript.simulate_reduced x key _ (NonceStream.get_lt _ _) (NonceStream.get_lt _ _)
  refine ⟨reduced_of_branches hownReduced hotherReduced, hsum, fun hα hβ name hname => ?_⟩
  obtain ⟨halpha, hbeta⟩ := holds_of_simulated hother hα hβ (proof.derivedChallenge H G x)
  simp only [List.mem_cons, List.not_mem_nil, or_false] at hname
  rcases hname with rfl | rfl
  · rw [outcome?_checks, halpha]
  · rw [outcome?_checks, hbeta]

/-- **The promises of the builders.**  Whatever words they are given, and whether or not the claim
is true:  for the plaintexts zero and one there is a proof, its values are reduced, its challenges
add up to the derived one, and if the `q`-th powers of the components of the ciphertext are one,
both equations hold for the plaintext that is not claimed; any other plaintext is refused; and a
proof of a known plaintext has reduced values and the derived challenge. -/
theorem prove_any_input (H : HashFunction) (G : SchnorrGroup) (x : Ciphertext) (r : Scalar)
    (key : Element) (seed : Scalar) :
    (∀ m ≤ 1, ∃ proof, prove H G x r key seed m = .ok proof ∧
      (proof.zero.Reduced G ∧ proof.one.Reduced G) ∧
      G.challenge H [.element x.alpha, .element x.beta, .element proof.zero.a,
          .element proof.zero.b, .element proof.one.a, .element proof.one.b] =
        G.add proof.zero.c proof.one.c ∧
      (x.alpha.toNat ^ G.q.toNat % G.p.toNat = 1 → x.beta.toNat ^ G.q.toNat % G.p.toNat = 1 →
        ∀ name ∈ if m = 0 then ["consistent_gv1", "consistent_gc1kv1"]
            else ["consistent_gv0", "consistent_kv0"],
          (proof.checks H G x key).outcome? name = some true)) ∧
    (∀ m, 2 ≤ m → prove H G x r key seed m = .error (.plaintextOutOfRange m)) ∧
    ∀ constant, let proof := ConstantProof.prove H G x constant r key seed
      proof.Reduced G ∧ proof.c = G.challenge H [.element x.alpha, .element x.beta,
        .element proof.a, .element proof.b] := by
  refine ⟨fun m hm => ?_, fun m hm => prove_of_two_le hm, fun constant => ?_⟩
  · interval_cases m
    · exact ⟨_, rfl, proveSelection_any_input H G x r key seed false⟩
    · exact ⟨_, rfl, proveSelection_any_input H G x r key seed true⟩
  · exact ⟨Commitment.respond_reduced key _ r challenge_lt, rfl⟩

/-- A ciphertext in words that are not reduced under the key 5, which is no member, with the claim
that it hides zero: a proof is made, and the equations for one hold. -/
theorem prove_any_input_small :
    let x : Ciphertext :=
      ⟨⟨⟨35, Word.lt_limit_of_lt (by decide)⟩⟩, ⟨⟨25, Word.lt_limit_of_lt (by decide)⟩⟩⟩
    let key : Element := small.toElement 5
    small.isMember key = false ∧
      ∃ proof, prove Sha3.hash small x (small.toScalar 9) key (small.toScalar 7) 0 = .ok proof ∧
        (proof.zero.Reduced small ∧ proof.one.Reduced small) ∧
        (proof.checks Sha3.hash small x key).outcome? "consistent_gv1" = some true ∧
        (proof.checks Sha3.hash small x key).outcome? "consistent_gc1kv1" = some true := by
  intro x key
  obtain ⟨hprove, -, -⟩ := prove_any_input Sha3.hash small x (small.toScalar 9) key
    (small.toScalar 7)
  obtain ⟨proof, hproof, hreduced, -, hequations⟩ := hprove 0 (by decide)
  have holds := hequations (by decide) (by decide)
  exact ⟨by decide, proof, hproof, hreduced, holds _ (.head _), holds _ (.tail _ (.head _))⟩

end DisjunctiveProof

end BallotProof
