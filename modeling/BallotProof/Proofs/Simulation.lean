import BallotProof.Proofs.Uniqueness
import BallotProof.Proofs.Verdicts
import BallotProof.Sha3
import Mathlib.Probability.Distributions.Uniform

/-!
# Proofs do not show the nonce

Here the challenge and the nonces of the builders are free classes modulo `q`.  For every fixed
challenge, the honest proof takes each accepted value exactly once while the nonces run through all
classes.  A simulator that knows neither the nonce of the ciphertext nor the selection does the
same: it chooses the scalars and solves the equations for the commitments.  So with uniform choices
both give a uniform accepted proof, in every group, whether or not `p` and `q` are prime.

* `PerfectlySimulated` says that an honest prover takes each value of a set once, and that its law
  is uniform and the one of a simulator.
* `Commitment.respond_eq_simulate` : **an honest run is a simulated one** with a shifted response.
* `Transcript.passes_iff_simulate` : what passes is what is simulated from its own scalars.
* `DisjunctiveProof.range_simulate`, `ConstantProof.range_simulate` : the simulators give all
  accepted proofs.
* `DisjunctiveProof.prove_eq_run`, `ConstantProof.prove_eq_run` : the builders give honest proofs.
* `perfectlySimulated_runs` : **both kinds of proofs are perfectly simulated**, the zero-or-one
  proof by one simulator for both selections.
-/

namespace BallotProof

open SchnorrGroup

/-! ### Uniform choices -/

theorem map_uniformOfFintype_apply {α β : Type} [Fintype α] [Nonempty α] {f : α → β}
    (hf : f.Injective) (b : β) :
    (PMF.uniformOfFintype α).map f b =
      (Set.range f).indicator (fun _ => (Fintype.card α : ENNReal)⁻¹) b := by
  rw [PMF.map_apply]
  by_cases hb : b ∈ Set.range f
  · obtain ⟨a, rfl⟩ := hb
    rw [Set.indicator_of_mem (Set.mem_range_self a), tsum_eq_single a, if_pos rfl,
      PMF.uniformOfFintype_apply]
    exact fun a' ha' => if_neg fun h => ha' (hf h).symm
  · rw [Set.indicator_of_notMem hb, ENNReal.tsum_eq_zero]
    exact fun a => if_neg fun h => hb ⟨a, h.symm⟩

/-- The honest prover `run` takes each value in the set exactly once.  So with uniform choices its
law is uniform on the set, and it is the law of the simulator. -/
structure PerfectlySimulated {α β : Type} [Fintype α] [Nonempty α] (run simulate : α → β)
    (accepted : Set β) : Prop where
  injective : run.Injective
  range_eq : Set.range run = accepted
  uniform : ∀ b, (PMF.uniformOfFintype α).map run b =
    accepted.indicator (fun _ => (Fintype.card α : ENNReal)⁻¹) b
  simulated : (PMF.uniformOfFintype α).map run = (PMF.uniformOfFintype α).map simulate

/-- It is enough that the choices of the honest prover can be turned into those of the simulator
and back. -/
theorem PerfectlySimulated.of_equiv {α β : Type} [Fintype α] [Nonempty α] {run simulate : α → β}
    (e : α ≃ α) (hrun : ∀ a, run a = simulate (e a)) (hinj : simulate.Injective) :
    PerfectlySimulated run simulate (Set.range simulate) := by
  obtain rfl : run = simulate ∘ e := funext hrun
  have hinj' : (simulate ∘ e).Injective := hinj.comp e.injective
  have hrange : Set.range (simulate ∘ e) = Set.range simulate := e.surjective.range_comp simulate
  refine ⟨hinj', hrange, fun b => ?_, PMF.ext fun b => ?_⟩
  · rw [map_uniformOfFintype_apply hinj', hrange]
  · rw [map_uniformOfFintype_apply hinj', map_uniformOfFintype_apply hinj, hrange]

variable {G : SchnorrGroup} {x : Ciphertext} {key : Element} {κ α β : G.Members} {m : Nat}

/-! ### Scalars of classes -/

namespace SchnorrGroup

/-- The reduced scalar of a class. -/
def scalar (G : SchnorrGroup) (a : ZMod G.q.toNat) : Scalar := G.toScalar a.val

theorem scalar_lt (a : ZMod G.q.toNat) : (G.scalar a).toNat < G.q.toNat := toScalar_lt _

@[simp] theorem exponent_scalar (a : ZMod G.q.toNat) : G.exponent (G.scalar a) = a :=
  exponent_toScalar_val a

theorem scalar_exponent {a : Scalar} (h : a.toNat < G.q.toNat) : G.scalar (G.exponent a) = a :=
  scalar_ext (scalar_lt _) h (exponent_scalar _)

theorem scalar_injective : Function.Injective G.scalar :=
  Function.LeftInverse.injective exponent_scalar

theorem eq_scalar_iff {a : Scalar} {c : ZMod G.q.toNat} (h : a.toNat < G.q.toNat) :
    a = G.scalar c ↔ G.exponent a = c := by
  constructor
  · rintro rfl
    exact exponent_scalar c
  · rintro rfl
    exact (scalar_exponent h).symm

theorem scalar_eq_add_iff {a b : Scalar} {c : ZMod G.q.toNat} :
    G.scalar c = G.add a b ↔ G.exponent a + G.exponent b = c := by
  rw [← exponent_add, ← eq_scalar_iff (a := G.add a b) (add_lt ..)]
  exact eq_comm

theorem sub_scalar (a b : ZMod G.q.toNat) : G.sub (G.scalar a) (G.scalar b) = G.scalar (a - b) := by
  have h : G.exponent (G.sub (G.scalar a) (G.scalar b)) = a - b := by
    rw [exponent_sub, exponent_scalar, exponent_scalar]
  exact (eq_scalar_iff (sub_lt ..)).2 h

theorem addMul_scalar (a b : ZMod G.q.toNat) (r : Scalar) :
    G.addMul (G.scalar a) (G.scalar b) r = G.scalar (a + b * G.exponent r) := by
  have h : G.exponent (G.addMul (G.scalar a) (G.scalar b) r) = a + b * G.exponent r := by
    rw [exponent_addMul, exponent_scalar, exponent_scalar]
  exact (eq_scalar_iff (addMul_lt ..)).2 h

end SchnorrGroup

/-! ### One transcript -/

/-- **An honest run is a simulated one** whose response is shifted by the challenge times the
nonce of the ciphertext. -/
theorem Commitment.respond_eq_simulate (κ : G.Members) (m : Nat) (u r c : Scalar) :
    (ofNonce G (G.element κ) u).respond G u r c =
      Transcript.simulate G (Ciphertext.ofClasses κ m (G.exponent r)) (G.element κ) m c
        (G.addMul u c r) := by
  have ha : G.exponent u • G.base =
      G.exponent (G.addMul u c r) • G.base - G.exponent c • G.exponent r • G.base := by
    rw [exponent_addMul]
    module
  have hb : G.exponent u • κ = G.exponent (G.addMul u c r) • κ + (G.exponent c * m) • G.base -
      G.exponent c • ((m : ZMod G.q.toNat) • G.base + G.exponent r • κ) := by
    rw [exponent_addMul]
    module
  rw [Transcript.simulate_element rfl rfl, ofNonce_element, ← ha, ← hb]
  rfl

theorem Transcript.passes_iff_simulate (hα : x.alpha = G.element α) (hβ : x.beta = G.element β)
    {t : Transcript} :
    t.Passes G x (G.element κ) m ↔
      (t.c.toNat < G.q.toNat ∧ t.v.toNat < G.q.toNat) ∧
        t = simulate G x (G.element κ) m t.c t.v := by
  constructor
  · intro h
    have hc := isReduced_iff.1 h.c_reduced
    have hv := isReduced_iff.1 h.v_reduced
    exact ⟨⟨hc, hv⟩, h.eq_of_answer hα hβ (simulate_passes hα hβ κ m hc hv) rfl rfl⟩
  · rintro ⟨⟨hc, hv⟩, h⟩
    rw [h]
    exact simulate_passes hα hβ κ m hc hv

/-! ### Zero-or-one proofs -/

namespace DisjunctiveProof

/-- The proof of an honest prover for the challenge `c`: the nonces are the challenge and the
response of the simulated transcript and the power of the commitment of the other one. -/
def run (G : SchnorrGroup) (x : Ciphertext) (r : Scalar) (key : Element) (selected : Bool)
    (c : ZMod G.q.toNat) :
    ZMod G.q.toNat × ZMod G.q.toNat × ZMod G.q.toNat → DisjunctiveProof
  | (otherChallenge, otherResponse, u) =>
    build G (fun _ => G.scalar c) x r key selected (G.scalar otherChallenge)
      (G.scalar otherResponse) (G.scalar u)

/-- The simulator for the challenge `c`: it chooses the challenge for one and both responses. -/
def simulate (G : SchnorrGroup) (x : Ciphertext) (key : Element) (c : ZMod G.q.toNat) :
    ZMod G.q.toNat × ZMod G.q.toNat × ZMod G.q.toNat → DisjunctiveProof
  | (c₁, v₀, v₁) =>
    { zero := .simulate G x key 0 (G.scalar (c - c₁)) (G.scalar v₀)
      one := .simulate G x key 1 (G.scalar c₁) (G.scalar v₁) }

/-- The choices of the simulator that belong to the nonces of an honest prover. -/
def choices (selected : Bool) (r c : ZMod G.q.toNat) :
    ZMod G.q.toNat × ZMod G.q.toNat × ZMod G.q.toNat ≃
      ZMod G.q.toNat × ZMod G.q.toNat × ZMod G.q.toNat :=
  match selected with
  | false =>
    { toFun := fun (c₁, v₁, u) => (c₁, u + (c - c₁) * r, v₁)
      invFun := fun (c₁, v₀, v₁) => (c₁, v₁, v₀ - (c - c₁) * r)
      left_inv := fun (c₁, v₁, u) => by simp
      right_inv := fun (c₁, v₀, v₁) => by simp }
  | true =>
    { toFun := fun (c₀, v₀, u) => (c - c₀, v₀, u + (c - c₀) * r)
      invFun := fun (c₁, v₀, v₁) => (c - c₁, v₀, v₁ - c₁ * r)
      left_inv := fun (c₀, v₀, u) => by simp
      right_inv := fun (c₁, v₀, v₁) => by simp }

theorem simulate_injective (c : ZMod G.q.toNat) : (simulate G x key c).Injective := by
  rintro ⟨c₁, v₀, v₁⟩ ⟨c₁', v₀', v₁'⟩ h
  have hc : c₁ = c₁' := scalar_injective (congrArg (fun proof => proof.one.c) h)
  have hv₀ : v₀ = v₀' := scalar_injective (congrArg (fun proof => proof.zero.v) h)
  have hv₁ : v₁ = v₁' := scalar_injective (congrArg (fun proof => proof.one.v) h)
  rw [hc, hv₀, hv₁]

/-- **The simulator gives all accepted proofs**, whatever the ciphertext hides. -/
theorem range_simulate (hα : x.alpha = G.element α) (hβ : x.beta = G.element β)
    (c : ZMod G.q.toNat) :
    Set.range (simulate G x (G.element κ) c) =
      {proof | ∀ i, proof.holds G (G.scalar c) x (G.element κ) i = true} := by
  have hx := Ciphertext.isMember_of_element hα hβ
  ext proof
  rw [Set.mem_ofPred_eq, holds_iff, scalar_eq_add_iff]
  constructor
  · rintro ⟨⟨c₁, v₀, v₁⟩, rfl⟩
    refine ⟨?_, hx, Transcript.simulate_passes hα hβ κ 0 (scalar_lt _) (scalar_lt _),
      Transcript.simulate_passes hα hβ κ 1 (scalar_lt _) (scalar_lt _)⟩
    calc G.exponent (G.scalar (c - c₁)) + G.exponent (G.scalar c₁)
        = c - c₁ + c₁ := by rw [exponent_scalar, exponent_scalar]
      _ = c := sub_add_cancel c c₁
  · rintro ⟨hsum, -, h0, h1⟩
    obtain ⟨⟨hc₀, hv₀⟩, e₀⟩ := (Transcript.passes_iff_simulate hα hβ).1 h0
    obtain ⟨⟨hc₁, hv₁⟩, e₁⟩ := (Transcript.passes_iff_simulate hα hβ).1 h1
    refine ⟨(G.exponent proof.one.c, G.exponent proof.zero.v, G.exponent proof.one.v), ?_⟩
    rw [simulate, ← hsum, add_sub_cancel_right, scalar_exponent hc₀, scalar_exponent hc₁,
      scalar_exponent hv₀, scalar_exponent hv₁, ← e₀, ← e₁]

theorem run_eq_simulate (κ : G.Members) (selected : Bool) (r : Scalar) (c : ZMod G.q.toNat)
    (hx : x = Ciphertext.ofClasses κ selected.toNat (G.exponent r))
    (nonces : ZMod G.q.toNat × ZMod G.q.toNat × ZMod G.q.toNat) :
    run G x r (G.element κ) selected c nonces =
      simulate G x (G.element κ) c (choices selected (G.exponent r) c nonces) := by
  obtain ⟨c', v', u⟩ := nonces
  have hown := Commitment.respond_eq_simulate κ selected.toNat (G.scalar u) r (G.scalar (c - c'))
  rw [← hx, addMul_scalar] at hown
  rw [run, build, sub_scalar, hown]
  cases selected with
  | false => rfl
  | true =>
    rw [simulate]
    simp only [choices, Equiv.coe_fn_mk, sub_sub_cancel]
    rfl

/-- The challenge function is used once, so its value can be taken for it. -/
theorem build_challenge (challenge : List ChallengeItem → Scalar) (r : Scalar) (selected : Bool)
    (otherChallenge otherResponse u : Scalar) :
    let proof := build G challenge x r key selected otherChallenge otherResponse u
    proof = build G (fun _ =>
      challenge (challengeItems x proof.zero.toCommitment proof.one.toCommitment)) x r key selected
        otherChallenge otherResponse u := by
  cases selected with
  | false => rfl
  | true => rfl

/-- **The builder gives an honest proof**: its nonces are the first entries of its stream, and its
challenge is the one that is derived from what it gives. -/
theorem prove_eq_run (H : HashFunction) (r seed : Scalar) (selected : Bool) :
    let nonce := fun i => G.exponent ((NonceStream.ofSeed G seed label).get H G i)
    ∃ c, prove H G x r key seed selected.toNat =
        .ok (run G x r key selected c (nonce 0, nonce 1, nonce 2)) ∧
      (run G x r key selected c (nonce 0, nonce 1, nonce 2)).derivedChallenge H G x =
        G.scalar c := by
  intro nonce
  set proof := proveSelection H G x r key seed selected
  have hc : G.scalar (G.exponent (proof.derivedChallenge H G x)) = proof.derivedChallenge H G x :=
    scalar_exponent challenge_lt
  have hnonce : ∀ i, G.scalar (nonce i) = (NonceStream.ofSeed G seed label).get H G i :=
    fun i => scalar_exponent (NonceStream.get_lt _ i)
  have hrun : proof = run G x r key selected (G.exponent (proof.derivedChallenge H G x))
      (nonce 0, nonce 1, nonce 2) := by
    rw [run, hc, hnonce, hnonce, hnonce]
    exact build_challenge (G.challenge H) r selected _ _ _
  refine ⟨G.exponent (proof.derivedChallenge H G x), ?_, ?_⟩
  · rw [← hrun]
    cases selected <;> rfl
  · rw [← hrun, hc]

/-- **Honest zero-or-one proofs are perfectly simulated.** -/
theorem perfectlySimulated_run (κ : G.Members) (selected : Bool) (r : Scalar) (c : ZMod G.q.toNat)
    (hx : x = Ciphertext.ofClasses κ selected.toNat (G.exponent r)) :
    PerfectlySimulated (run G x r (G.element κ) selected c) (simulate G x (G.element κ) c)
      {proof | ∀ i, proof.holds G (G.scalar c) x (G.element κ) i = true} := by
  rw [← range_simulate (by rw [hx]; rfl) (by rw [hx]; rfl) c]
  exact .of_equiv (choices selected (G.exponent r) c) (run_eq_simulate κ selected r c hx)
    (simulate_injective c)

end DisjunctiveProof

/-! ### Proofs of a known plaintext -/

namespace ConstantProof

variable {constant : Int64}

/-- The proof of an honest prover for the challenge `c`: the nonce is the power of the
commitment. -/
def run (G : SchnorrGroup) (x : Ciphertext) (constant : Int64) (r : Scalar) (key : Element)
    (c u : ZMod G.q.toNat) : ConstantProof :=
  build G (fun _ => G.scalar c) x constant r key (G.scalar u)

/-- The simulator for the challenge `c`: it chooses the response. -/
def simulate (G : SchnorrGroup) (x : Ciphertext) (constant : Int64) (key : Element)
    (c v : ZMod G.q.toNat) : ConstantProof :=
  { Transcript.simulate G x key constant.toInt.toNat (G.scalar c) (G.scalar v) with constant }

theorem simulate_injective (c : ZMod G.q.toNat) : (simulate G x constant key c).Injective := by
  intro v v' h
  exact scalar_injective (congrArg (fun proof => proof.v) h)

/-- **The simulator gives all accepted proofs** of a plaintext in range, whatever the ciphertext
hides. -/
theorem range_simulate (hα : x.alpha = G.element α) (hβ : x.beta = G.element β)
    (hrange : InRange G constant) (c : ZMod G.q.toNat) :
    Set.range (simulate G x constant (G.element κ) c) =
      {proof | proof.constant = constant ∧
        ∀ i, proof.holds G (G.scalar c) x (G.element κ) i = true} := by
  have hx := Ciphertext.isMember_of_element hα hβ
  ext proof
  rw [Set.mem_ofPred_eq, holds_iff]
  constructor
  · rintro ⟨v, rfl⟩
    exact ⟨rfl, rfl, hx, hrange,
      Transcript.simulate_passes hα hβ κ constant.toInt.toNat (scalar_lt c) (scalar_lt v)⟩
  · rintro ⟨rfl, hc, -, -, h⟩
    obtain ⟨⟨-, hv⟩, e⟩ := (Transcript.passes_iff_simulate hα hβ).1 h
    refine ⟨G.exponent proof.v, ?_⟩
    rw [simulate, scalar_exponent hv, hc, ← e]

theorem run_eq_simulate (κ : G.Members) (r : Scalar) (c : ZMod G.q.toNat)
    (hx : x = Ciphertext.ofClasses κ constant.toInt.toNat (G.exponent r)) (u : ZMod G.q.toNat) :
    run G x constant r (G.element κ) c u =
      simulate G x constant (G.element κ) c (u + c * G.exponent r) := by
  have hown := Commitment.respond_eq_simulate κ constant.toInt.toNat (G.scalar u) r (G.scalar c)
  rw [← hx, addMul_scalar] at hown
  rw [run, build, hown, simulate]

theorem build_challenge (challenge : List ChallengeItem → Scalar) (r u : Scalar) :
    let proof := build G challenge x constant r key u
    proof = build G (fun _ => challenge (challengeItems x proof.toCommitment)) x constant r key u :=
  rfl

/-- **The builder gives an honest proof**: its nonce is the first entry of its stream, and its
challenge is the one that is derived from what it gives. -/
theorem prove_eq_run (H : HashFunction) (r seed : Scalar) :
    let nonce := G.exponent ((NonceStream.ofSeed G seed label).get H G 0)
    ∃ c, prove H G x constant r key seed = run G x constant r key c nonce ∧
      (run G x constant r key c nonce).derivedChallenge H G x = G.scalar c := by
  intro nonce
  set proof := prove H G x constant r key seed
  have hc : G.scalar (G.exponent (proof.derivedChallenge H G x)) = proof.derivedChallenge H G x :=
    scalar_exponent challenge_lt
  have hnonce : G.scalar nonce = (NonceStream.ofSeed G seed label).get H G 0 :=
    scalar_exponent (NonceStream.get_lt _ 0)
  have hrun : proof = run G x constant r key (G.exponent (proof.derivedChallenge H G x)) nonce := by
    rw [run, hc, hnonce]
    exact build_challenge (G.challenge H) r _
  refine ⟨G.exponent (proof.derivedChallenge H G x), hrun, ?_⟩
  rw [← hrun, hc]

/-- **Honest proofs of a known plaintext are perfectly simulated.** -/
theorem perfectlySimulated_run (κ : G.Members) (r : Scalar) (c : ZMod G.q.toNat)
    (hrange : InRange G constant)
    (hx : x = Ciphertext.ofClasses κ constant.toInt.toNat (G.exponent r)) :
    PerfectlySimulated (run G x constant r (G.element κ) c)
      (simulate G x constant (G.element κ) c)
      {proof | proof.constant = constant ∧
        ∀ i, proof.holds G (G.scalar c) x (G.element κ) i = true} := by
  rw [← range_simulate (by rw [hx]; rfl) (by rw [hx]; rfl) hrange c]
  exact .of_equiv (Equiv.addRight (c * G.exponent r)) (run_eq_simulate κ r c hx)
    (simulate_injective c)

end ConstantProof

/-! ### Both kinds of proofs -/

/-- **Both kinds of proofs are perfectly simulated.**  The builders give honest proofs for the
challenge that is derived and the first entries of their stream.  In every group and for every fixed
challenge, an honest proof of a selection takes each accepted value once while its three nonces run
through all classes, and with uniform nonces its law is uniform and the one of a simulator that
knows neither nonce nor selection.  The same holds for the proofs of a plaintext in range and their
one nonce. -/
theorem perfectlySimulated_runs (H : HashFunction) (G : SchnorrGroup) (s : Nat) (r : Scalar) :
    let key := G.toElement (G.g.toNat ^ s)
    (∀ selected : Bool,
      let x : Ciphertext := ⟨G.toElement (G.g.toNat ^ r.toNat),
        G.toElement (G.g.toNat ^ selected.toNat * key.toNat ^ r.toNat)⟩
      (∀ c, PerfectlySimulated (DisjunctiveProof.run G x r key selected c)
        (DisjunctiveProof.simulate G x key c)
        {proof | ∀ i, proof.holds G (G.scalar c) x key i = true}) ∧
      ∀ seed,
        let nonce := fun i =>
          G.exponent ((NonceStream.ofSeed G seed DisjunctiveProof.label).get H G i)
        ∃ c, let proof := DisjunctiveProof.run G x r key selected c (nonce 0, nonce 1, nonce 2)
          DisjunctiveProof.prove H G x r key seed selected.toNat = .ok proof ∧
            proof.derivedChallenge H G x = G.scalar c) ∧
    ∀ constant : Int64, 0 ≤ constant.toInt → constant.toInt < min (G.q.toNat : Int) 1000000000 →
      let x : Ciphertext := ⟨G.toElement (G.g.toNat ^ r.toNat),
        G.toElement (G.g.toNat ^ constant.toInt.toNat * key.toNat ^ r.toNat)⟩
      (∀ c, PerfectlySimulated (ConstantProof.run G x constant r key c)
        (ConstantProof.simulate G x constant key c)
        {proof | proof.constant = constant ∧
          ∀ i, proof.holds G (G.scalar c) x key i = true}) ∧
      ∀ seed,
        let nonce := G.exponent ((NonceStream.ofSeed G seed ConstantProof.label).get H G 0)
        ∃ c, let proof := ConstantProof.run G x constant r key c nonce
          ConstantProof.prove H G x constant r key seed = proof ∧
            proof.derivedChallenge H G x = G.scalar c := by
  intro key
  have hkey : key = G.element ((s : ZMod G.q.toNat) • G.base) := toElement_g_pow s
  have hx : ∀ m : Nat, (⟨G.toElement (G.g.toNat ^ r.toNat),
      G.toElement (G.g.toNat ^ m * key.toNat ^ r.toNat)⟩ : Ciphertext) =
        Ciphertext.ofClasses ((s : ZMod G.q.toNat) • G.base) m (G.exponent r) := by
    intro m
    rw [hkey]
    exact Ciphertext.eq_ofClasses _ m r.toNat
  constructor
  · intro selected x
    refine ⟨fun c => ?_, fun seed => DisjunctiveProof.prove_eq_run H r seed selected⟩
    rw [hkey]
    exact DisjunctiveProof.perfectlySimulated_run _ selected r c (hx selected.toNat)
  · intro constant h0 hlt x
    refine ⟨fun c => ?_, fun seed => ConstantProof.prove_eq_run H r seed⟩
    rw [hkey]
    exact ConstantProof.perfectlySimulated_run _ r c ⟨h0, hlt⟩ (hx constant.toInt.toNat)

/-- In the group of order 11 with the challenge three, each accepted proof that a ciphertext of two
hides two is given with the same probability, one in eleven. -/
theorem perfectlySimulated_runs_small :
    let key := small.toElement (small.g.toNat ^ 3)
    let x : Ciphertext := ⟨small.toElement (small.g.toNat ^ (small.toScalar 5).toNat),
      small.toElement (small.g.toNat ^ 2 * key.toNat ^ (small.toScalar 5).toNat)⟩
    let proof := ConstantProof.simulate small x 2 key 3 7
    (PMF.uniformOfFintype (ZMod small.q.toNat)).map
      (ConstantProof.run small x 2 (small.toScalar 5) key 3) proof = (11 : ENNReal)⁻¹ := by
  intro key x proof
  obtain ⟨-, hconstant⟩ := perfectlySimulated_runs Sha3.hash small 3 (small.toScalar 5)
  obtain ⟨hsimulated, -⟩ := hconstant 2 (by decide) (by decide)
  have haccepted : proof.constant = 2 ∧
      ∀ i ∈ ConstantCheck.all, proof.holds small (small.scalar 3) x key i = true := by
    decide +kernel
  refine ((hsimulated 3).uniform proof).trans ?_
  rw [Set.indicator_of_mem, ZMod.card]
  · rfl
  · exact ⟨haccepted.1, fun i => haccepted.2 i (ConstantCheck.mem_all i)⟩

end BallotProof
