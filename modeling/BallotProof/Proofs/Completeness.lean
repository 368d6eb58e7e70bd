import BallotProof.Proofs.Verdicts
import BallotProof.Sha3
import Mathlib.Tactic.IntervalCases

/-!
# Honest proofs are accepted

What the builders return for a ciphertext with a known nonce passes every check, in every group and
for every hash function.  The challenge and the nonces of the builders are parameters first, so that
nothing is assumed of the hash function but that challenges are reduced.

* `DisjunctiveProof.build_holds` : a zero-or-one proof passes, whichever of its two transcripts is
  simulated.
* `ConstantProof.build_holds` : a proof of a known plaintext passes if the plaintext is in range.
* `DisjunctiveProof.verifyWith_prove_encrypt` : **a ballot selection can be encrypted, proven and
  verified.**
* `ConstantProof.verifyWith_prove_aggregate` : **so can the sum of any number of selections**, under
  the sum of the nonces, also where that sum is zero.
-/

namespace BallotProof

open SchnorrGroup

variable {G : SchnorrGroup}

/-! ### A selection -/

namespace DisjunctiveProof

theorem build_holds (challenge : List ChallengeItem → Scalar) (κ : G.Members) (r u : Scalar)
    (selected : Bool) {otherChallenge otherResponse : Scalar}
    (hchallenge : ∀ items, (challenge items).toNat < G.q.toNat)
    (hc : otherChallenge.toNat < G.q.toNat) (hv : otherResponse.toNat < G.q.toNat)
    {x : Ciphertext} (hx : x = Ciphertext.ofClasses κ selected.toNat (G.exponent r))
    {proof : DisjunctiveProof}
    (hproof : proof =
      build G challenge x r (G.element κ) selected otherChallenge otherResponse u)
    (i : DisjunctiveCheck) :
    proof.holds G
      (challenge (challengeItems x proof.zero.toCommitment proof.one.toCommitment)) x
      (G.element κ) i = true := by
  revert i
  have hmember : G.isMember x.alpha = true ∧ G.isMember x.beta = true := by
    rw [hx]
    exact ⟨isMember_element _, isMember_element _⟩
  -- the transcript of the selection answers what the simulated one leaves of the challenge
  have own : ∀ c,
      ((Commitment.ofNonce G (G.element κ) u).respond G u r (G.sub c otherChallenge)).Passes G x
        (G.element κ) selected.toNat := by
    intro c
    rw [hx]
    exact Commitment.respond_passes κ selected.toNat u r (sub_lt ..)
  have other : ∀ m, (Transcript.simulate G x (G.element κ) m otherChallenge otherResponse).Passes
      G x (G.element κ) m := by
    intro m
    rw [hx]
    exact Transcript.simulate_passes rfl rfl κ m hc hv
  subst hproof
  cases selected with
  | false => exact holds_iff.2 ⟨(add_sub_of_lt (hchallenge _)).1.symm, hmember, own _, other 1⟩
  | true => exact holds_iff.2 ⟨(add_sub_of_lt (hchallenge _)).2.symm, hmember, other 0, own _⟩

theorem proveSelection_holds {H : HashFunction} (κ : G.Members) (r seed : Scalar)
    (selected : Bool) :
    let x := Ciphertext.ofClasses κ (selected.toNat : ZMod G.q.toNat) (G.exponent r)
    let proof := proveSelection H G x r (G.element κ) seed selected
    ∀ i, proof.holds G (proof.derivedChallenge H G x) x (G.element κ) i = true := by
  intro x proof
  exact build_holds (G.challenge H) κ r _ selected (fun _ => challenge_lt)
    (NonceStream.get_lt _ 0) (NonceStream.get_lt _ 1) rfl rfl

theorem verifyWith_proveSelection (H : HashFunction) (κ : G.Members) (r seed : Scalar)
    (selected : Bool) {M : Type → Type} [Monad M] (sink : Diagnostic → M Unit) :
    let x := Ciphertext.ofClasses κ (selected.toNat : ZMod G.q.toNat) (G.exponent r)
    (Proof.disjunctive (proveSelection H G x r (G.element κ) seed selected)).verifyWith H G x
      (G.element κ) sink = pure true :=
  Proof.verifyWith_of_isValid sink
    (checks_isValid_iff.2 (proveSelection_holds κ r seed selected))

theorem prove_toNat (H : HashFunction) (x : Ciphertext) (r : Scalar) (key : Element)
    (seed : Scalar) (selected : Bool) :
    prove H G x r key seed selected.toNat = .ok (proveSelection H G x r key seed selected) := by
  cases selected <;> rfl

/-- **A ballot selection can be encrypted, proven and verified.**  In every group, for every key
pair, accepted nonce and seed, and for every hash function, the selections zero and one can be
encrypted, the proof about the ciphertext can be made, all its checks pass and no sink is called. -/
theorem verifyWith_prove_encrypt (H : HashFunction) (G : SchnorrGroup) {secret r : Scalar}
    {keys : KeyPair} {m : Nat} (seed : Scalar) (hkeys : KeyPair.ofSecret G secret = .ok keys)
    (hpos : 1 ≤ r.toNat) (hlt : r.toNat < G.q.toNat) (hm : m ≤ 1) :
    ∃ x proof, Ciphertext.encrypt? G m r keys.publicKey = some x ∧
      prove H G x r keys.publicKey seed m = .ok proof ∧
      proof.checks H G x keys.publicKey =
        [("in_bounds_alpha", true), ("in_bounds_beta", true), ("in_bounds_a0", true),
         ("in_bounds_b0", true), ("in_bounds_a1", true), ("in_bounds_b1", true),
         ("in_bounds_c0", true), ("in_bounds_c1", true), ("in_bounds_v0", true),
         ("in_bounds_v1", true), ("consistent_c", true), ("consistent_gv0", true),
         ("consistent_gv1", true), ("consistent_kv0", true), ("consistent_gc1kv1", true)] ∧
      ∀ (M : Type → Type) [Monad M] (sink : Diagnostic → M Unit),
        (Proof.disjunctive proof).verifyWith H G x keys.publicKey sink = pure true := by
  obtain ⟨selected, rfl⟩ : ∃ selected : Bool, m = selected.toNat := by
    interval_cases m
    · exact ⟨false, rfl⟩
    · exact ⟨true, rfl⟩
  rw [KeyPair.publicKey_eq hkeys]
  have hholds := proveSelection_holds (H := H) (G.exponent secret • G.base) r seed selected
  exact ⟨_, _, Ciphertext.encrypt?_element _ _ hpos hlt, prove_toNat H _ r _ seed selected,
    checks_of_holds hholds, fun M _ sink => verifyWith_proveSelection H _ r seed selected sink⟩

/-- The selection one in the group of order 11, hashed with SHA3-256. -/
theorem verifyWith_prove_encrypt_small :
    ∃ x proof, Ciphertext.encrypt? small 1 (small.toScalar 5) smallKeys.publicKey = some x ∧
      prove Sha3.hash small x (small.toScalar 5) smallKeys.publicKey 7 1 = .ok proof ∧
      proof.checks Sha3.hash small x smallKeys.publicKey =
        [("in_bounds_alpha", true), ("in_bounds_beta", true), ("in_bounds_a0", true),
         ("in_bounds_b0", true), ("in_bounds_a1", true), ("in_bounds_b1", true),
         ("in_bounds_c0", true), ("in_bounds_c1", true), ("in_bounds_v0", true),
         ("in_bounds_v1", true), ("consistent_c", true), ("consistent_gv0", true),
         ("consistent_gv1", true), ("consistent_kv0", true), ("consistent_gc1kv1", true)] ∧
      ∀ (M : Type → Type) [Monad M] (sink : Diagnostic → M Unit),
        (Proof.disjunctive proof).verifyWith Sha3.hash small x smallKeys.publicKey sink =
          pure true :=
  verifyWith_prove_encrypt Sha3.hash small 7 ofSecret_small (by decide) (by decide) (by decide)

end DisjunctiveProof

/-! ### A sum of selections -/

namespace ConstantProof

theorem build_holds (challenge : List ChallengeItem → Scalar) (κ : G.Members) (r u : Scalar)
    {constant : Int64} (hchallenge : ∀ items, (challenge items).toNat < G.q.toNat)
    (hrange : InRange G constant) {x : Ciphertext}
    (hx : x = Ciphertext.ofClasses κ constant.toInt.toNat (G.exponent r)) {proof : ConstantProof}
    (hproof : proof = build G challenge x constant r (G.element κ) u)
    (i : ConstantCheck) :
    proof.holds G (challenge (challengeItems x proof.toCommitment)) x (G.element κ) i = true := by
  revert i
  subst hx hproof
  exact holds_iff.2 ⟨rfl, ⟨isMember_element _, isMember_element _⟩, hrange,
    Commitment.respond_passes κ constant.toInt.toNat u r (hchallenge _)⟩

theorem verifyWith_prove (H : HashFunction) (κ : G.Members) (r seed : Scalar) {constant : Int64}
    (hrange : InRange G constant) {x : Ciphertext}
    (hx : x = Ciphertext.ofClasses κ constant.toInt.toNat (G.exponent r)) {M : Type → Type}
    [Monad M] (sink : Diagnostic → M Unit) :
    (Proof.constant (prove H G x constant r (G.element κ) seed)).verifyWith H G x (G.element κ)
      sink = pure true :=
  Proof.verifyWith_of_isValid sink (checks_isValid_iff.2
    (build_holds (G.challenge H) κ r _ (fun _ => challenge_lt) hrange hx rfl))

theorem cast_toNat_eq_sum {ballots : List (Nat × Scalar)} {constant : Int64}
    (h0 : 0 ≤ constant.toInt)
    (hsum : constant.toInt ≡ ((ballots.map Prod.fst).sum : Nat) [ZMOD G.q.toNat]) :
    (constant.toInt.toNat : ZMod G.q.toNat) =
      (ballots.map fun b => (b.1 : ZMod G.q.toNat)).sum := by
  rw [cast_toNat_of_nonneg h0, (ZMod.intCast_eq_intCast_iff _ _ _).2 hsum, Int.cast_natCast,
    Nat.cast_list_sum, List.map_map]
  rfl

/-- **The sum of any number of selections can be proven and verified.**  In every group, for every
key pair and seed, and for every hash function, any number of plaintexts can be encrypted, the proof
about their aggregate can be made from the sum of the nonces, all its checks pass and no sink is
called, for every constant in range that is congruent to the sum of the plaintexts.  The sum of the
nonces may be zero. -/
theorem verifyWith_prove_aggregate (H : HashFunction) (G : SchnorrGroup) {secret : Scalar}
    {keys : KeyPair} {ballots : List (Nat × Scalar)} {constant : Int64} (seed : Scalar)
    (hkeys : KeyPair.ofSecret G secret = .ok keys)
    (hnonces : ∀ b ∈ ballots, 1 ≤ b.2.toNat ∧ b.2.toNat < G.q.toNat)
    (h0 : 0 ≤ constant.toInt) (hlt : constant.toInt < min (G.q.toNat : Int) 1000000000)
    (hsum : constant.toInt ≡ ((ballots.map Prod.fst).sum : Nat) [ZMOD G.q.toNat]) :
    ∃ xs, (ballots.mapM fun b => Ciphertext.encrypt? G b.1 b.2 keys.publicKey) = some xs ∧
      let x := Ciphertext.aggregate G xs
      let r := (ballots.map Prod.snd).foldl G.add 0
      let proof := prove H G x constant r keys.publicKey seed
      (r.toNat = 0 → x.alpha = 1) ∧
        proof.checks H G x keys.publicKey =
          [("in_bounds_alpha", true), ("in_bounds_beta", true), ("in_bounds_a", true),
           ("in_bounds_b", true), ("in_bounds_c", true), ("in_bounds_v", true),
           ("in_bounds_constant", true), ("sane_constant", true), ("consistent_c", true),
           ("consistent_gv", true), ("consistent_kv", true)] ∧
        ∀ (M : Type → Type) [Monad M] (sink : Diagnostic → M Unit),
          (Proof.constant proof).verifyWith H G x keys.publicKey sink = pure true := by
  rw [KeyPair.publicKey_eq hkeys]
  set κ := G.exponent secret • G.base
  refine ⟨_, Ciphertext.mapM_encrypt?_element κ hnonces, ?_⟩
  intro x r proof
  have hr : G.exponent r = (ballots.map fun b => G.exponent b.2).sum := by
    rw [exponent_foldl_add, exponent_zero, zero_add, List.map_map]
    rfl
  have hx : x = Ciphertext.ofClasses κ constant.toInt.toNat (G.exponent r) := by
    rw [cast_toNat_eq_sum h0 hsum, hr]
    exact Ciphertext.aggregate_ofClasses κ _ _ ballots
  have hholds := build_holds (G.challenge H) κ r
    ((NonceStream.ofSeed G seed label).get H G 0) (fun _ => challenge_lt) ⟨h0, hlt⟩ hx rfl
  refine ⟨fun hzero => ?_, checks_of_holds hholds,
    fun M _ sink => verifyWith_prove H κ r seed ⟨h0, hlt⟩ hx sink⟩
  rw [hx, Ciphertext.ofClasses, exponent, hzero, Nat.cast_zero, zero_smul, ← one_eq]

/-- Two selections of one whose nonces add up to zero, and the limit of two. -/
theorem verifyWith_prove_aggregate_small :
    ∃ xs, ([(1, small.toScalar 5), (1, small.toScalar 6)].mapM fun b =>
        Ciphertext.encrypt? small b.1 b.2 smallKeys.publicKey) = some xs ∧
      let x := Ciphertext.aggregate small xs
      let r := ([(1, small.toScalar 5), (1, small.toScalar 6)].map Prod.snd).foldl small.add 0
      let proof := prove Sha3.hash small x 2 r smallKeys.publicKey 7
      (r.toNat = 0 → x.alpha = 1) ∧
        proof.checks Sha3.hash small x smallKeys.publicKey =
          [("in_bounds_alpha", true), ("in_bounds_beta", true), ("in_bounds_a", true),
           ("in_bounds_b", true), ("in_bounds_c", true), ("in_bounds_v", true),
           ("in_bounds_constant", true), ("sane_constant", true), ("consistent_c", true),
           ("consistent_gv", true), ("consistent_kv", true)] ∧
        ∀ (M : Type → Type) [Monad M] (sink : Diagnostic → M Unit),
          (Proof.constant proof).verifyWith Sha3.hash small x smallKeys.publicKey sink =
            pure true :=
  verifyWith_prove_aggregate Sha3.hash small 7 ofSecret_small (by decide) (by decide) (by decide)
    (by decide)

end ConstantProof

end BallotProof
