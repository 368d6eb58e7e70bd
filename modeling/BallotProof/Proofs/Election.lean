import BallotProof.Election
import BallotProof.Proofs.Completeness
import BallotProof.Proofs.FreshGroups

/-!
# The sample election succeeds

Every step of an election is shown to come down to its result, without a line on the error output.
A vote is cast as the ciphertext of its class under the class of the drawn nonce.  So a ballot
aggregates to the limit of the contest, and a column of ballots to the number of voters who marked
the selection.  In a group of prime order this number is what is decrypted, if there are fewer
voters than exponents.

* `Election.castSelection_eq`, `Election.castBallot_eq` : **what is cast is proven and verified.**
* `Election.trueTally_eq` : the true tally counts the voters who marked a selection.
* `Election.countSelection_eq` : **what is decrypted is the true tally.**
* `Election.run_eq` : **an election in a group of prime order succeeds** and announces how many
  voters marked each selection.
* `Election.simple_eq` : so does the sample election, whatever is drawn.
-/

namespace BallotProof

open SchnorrGroup

variable {G : SchnorrGroup} {contest : Contest}

/-! ### Votes -/

/-- The nonce that is drawn for a selection. -/
def Choice.nonce (G : SchnorrGroup) (choice : Choice) : Scalar :=
  (Election.nonce? G choice.nonces).getD 0

/-- Among the draws for the nonce of each selection is one that can be used. -/
def Voter.HasNonces (G : SchnorrGroup) (voter : Voter contest) : Prop :=
  ∀ choice ∈ voter.choices, ∃ w ∈ choice.nonces, w.toNat % G.q.toNat ≠ 0

namespace Voter

theorem vote_mem_marks (voter : Voter contest) {choice : Choice} (h : choice ∈ voter.choices) :
    choice.vote = 1 ∨ choice.vote = 0 := by
  have hmem : choice.vote ∈ contest.marks :=
    voter.shuffled.mem_iff.1 (List.mem_map_of_mem h)
  rw [Contest.marks, List.mem_append] at hmem
  exact hmem.imp List.eq_of_mem_replicate List.eq_of_mem_replicate

theorem sum_votes (voter : Voter contest) :
    (voter.choices.map Choice.vote).sum = contest.limit := by
  rw [voter.shuffled.sum_eq, Contest.marks]
  simp

theorem length_choices (voter : Voter contest) :
    voter.choices.length = contest.selections := by
  have hlength := voter.shuffled.length_eq
  have hle := contest.limit_le
  simp only [Contest.marks, List.length_map, List.length_append, List.length_replicate] at hlength
  omega

end Voter

namespace Election

theorem nonce?_of_exists {draws : List Word} (h : ∃ w ∈ draws, w.toNat % G.q.toNat ≠ 0) :
    ∃ r, nonce? G draws = some r ∧ 0 < r.toNat ∧ r.toNat < G.q.toNat := by
  obtain ⟨w, hw, hne⟩ := h
  have hsome : (nonce? G draws).isSome = true := by
    rw [nonce?, List.find?_isSome]
    refine ⟨G.reduce w, List.mem_map_of_mem hw, decide_eq_true fun hzero => hne ?_⟩
    rw [← toNat_reduce, hzero, toNat_zero]
  obtain ⟨r, hr⟩ := Option.isSome_iff_exists.1 hsome
  have hfound : (draws.map G.reduce).find? (· ≠ 0) = some r := hr
  have hpos : r ≠ 0 := by simpa using List.find?_some hfound
  obtain ⟨w', -, rfl⟩ := List.mem_map.1 (List.mem_of_find?_eq_some hfound)
  refine ⟨_, hr, Nat.pos_of_ne_zero fun hzero => hpos (Scalar.ext ?_), reduce_lt w'⟩
  rw [hzero, toNat_zero]

theorem mapM_eq_pure {α β : Type} {f : α → Step β} {g : α → β} {as : List α}
    (h : ∀ a ∈ as, f a = pure (g a)) : as.mapM f = pure (as.map g) := by
  induction as with
  | nil => rfl
  | cons a as ih =>
    have hrest := ih fun a' ha' => h a' (List.mem_cons_of_mem a ha')
    rw [List.mapM_cons, h a List.mem_cons_self, hrest, pure_bind, pure_bind, List.map_cons]

theorem map_zipIdx {α β : Type} (f : α → β) (as : List α) :
    (as.zipIdx.map fun p => f p.1) = as.map f := by
  conv_rhs => rw [← List.zipIdx_map_fst 0 as, List.map_map]
  rfl

/-! ### Casting -/

section Casting

variable (H : HashFunction) (κ : G.Members)

/-- The ciphertext that is cast. -/
def castChoice (choice : Choice) : Ciphertext :=
  .ofClasses κ choice.vote (G.exponent (choice.nonce G))

/-- **A selection that is cast is proven and verified.** -/
theorem castSelection_eq {choice : Choice} (hvote : choice.vote = 1 ∨ choice.vote = 0)
    (hnonce : ∃ w ∈ choice.nonces, w.toNat % G.q.toNat ≠ 0) (index : Nat) :
    castSelection H G (G.element κ) choice index =
      pure (castChoice κ choice, choice.nonce G) := by
  obtain ⟨r, hr, hpos, hlt⟩ := nonce?_of_exists hnonce
  obtain ⟨selected, hselected⟩ : ∃ selected : Bool, choice.vote = selected.toNat := by
    rcases hvote with h | h
    · exact ⟨true, h⟩
    · exact ⟨false, h⟩
  have hdrawn : choice.nonce G = r := by rw [Choice.nonce, hr, Option.getD_some]
  rw [castChoice, castSelection, hdrawn, hr, hselected]
  simp only [Ciphertext.encrypt?_element κ _ hpos hlt, DisjunctiveProof.prove_toNat,
    DisjunctiveProof.verifyWith_proveSelection, pure_bind, if_true]

theorem aggregate_castChoice (voter : Voter contest) :
    Ciphertext.aggregate G (voter.choices.map (castChoice κ)) =
      .ofClasses κ contest.limit
        (G.exponent ((voter.choices.map (Choice.nonce G)).foldl G.add 0)) := by
  rw [exponent_foldl_add, exponent_zero, zero_add, List.map_map, ← voter.sum_votes,
    Nat.cast_list_sum, List.map_map]
  exact Ciphertext.aggregate_ofClasses κ _ _ _

/-- **A ballot that is cast is proven and verified.** -/
theorem castBallot_eq (hlimit : contest.limit < min G.q.toNat 1000000000)
    (voter : Voter contest) (hnonces : voter.HasNonces G) :
    castBallot H G (G.element κ) voter = pure (voter.choices.map (castChoice κ)) := by
  have hcast : ∀ p ∈ voter.choices.zipIdx, castSelection H G (G.element κ) p.1 p.2 =
      pure (castChoice κ p.1, p.1.nonce G) := by
    intro p hp
    have hchoice := List.fst_mem_of_mem_zipIdx hp
    exact castSelection_eq H κ (voter.vote_mem_marks hchoice) (hnonces p.1 hchoice) p.2
  have hconstant : (Int64.ofNat contest.limit).toInt = contest.limit :=
    Int64.toInt_ofNat_of_lt (by omega)
  have hrange : ConstantProof.InRange G (Int64.ofNat contest.limit) := by
    rw [ConstantProof.InRange, hconstant, ConstantProof.maxConstant]
    omega
  have hx := aggregate_castChoice κ voter
  rw [← Int.toNat_natCast contest.limit, ← hconstant] at hx
  have hverify := ConstantProof.verifyWith_prove H κ _ (G.reduce voter.seed) hrange hx printSink
  have hballot : (voter.choices.zipIdx.map fun p => (castChoice κ p.1, p.1.nonce G)).map Prod.fst =
      voter.choices.map (castChoice κ) := by
    rw [List.map_map]
    exact map_zipIdx (castChoice κ) _
  have hnonce : (voter.choices.zipIdx.map fun p => (castChoice κ p.1, p.1.nonce G)).map Prod.snd =
      voter.choices.map (Choice.nonce G) := by
    rw [List.map_map]
    exact map_zipIdx (Choice.nonce G) _
  rw [castBallot, mapM_eq_pure hcast]
  simp only [pure_bind, hballot, hnonce, hverify, if_true]

end Casting

/-! ### Counting -/

/-- The number of voters who marked the selection at an index. -/
def votesFor (voters : List (Voter contest)) (index : Nat) : Nat :=
  voters.countP fun voter => (voter.choices.map Choice.vote)[index]? = some 1

theorem zipWith_votes (voter : Voter contest) (votes : Nat → Nat) :
    List.zipWith (· + ·) ((List.range contest.selections).map votes)
        (voter.choices.map Choice.vote) =
      (List.range contest.selections).map fun index => votes index + votesFor [voter] index := by
  have hlength := voter.length_choices
  refine List.ext_getElem (by simp [hlength]) fun index h h' => ?_
  have hindex : index < voter.choices.length := by
    rw [List.length_zipWith, List.length_map, List.length_map] at h
    omega
  have hvote := voter.vote_mem_marks (List.getElem_mem hindex)
  simp only [List.getElem_zipWith, List.getElem_map, List.getElem_range, votesFor,
    List.countP_singleton, List.getElem?_map, List.getElem?_eq_getElem hindex, Option.map_some,
    Option.some.injEq, decide_eq_true_eq]
  rcases hvote with hone | hzero
  · rw [hone, if_pos rfl]
  · rw [hzero, if_neg Nat.zero_ne_one]

theorem votesFor_cons (voter : Voter contest) (voters : List (Voter contest)) (index : Nat) :
    votesFor (voter :: voters) index = votesFor [voter] index + votesFor voters index := by
  rw [votesFor, votesFor, votesFor, List.countP_cons, List.countP_singleton, Nat.add_comm]

/-- The tally so far may be any. -/
theorem foldl_zipWith_votes (voters : List (Voter contest)) (votes : Nat → Nat) :
    voters.foldl (fun tally voter => List.zipWith (· + ·) tally (voter.choices.map Choice.vote))
        ((List.range contest.selections).map votes) =
      (List.range contest.selections).map fun index => votes index + votesFor voters index := by
  induction voters generalizing votes with
  | nil => simp [votesFor]
  | cons voter voters ih =>
    rw [List.foldl_cons, zipWith_votes, ih]
    refine List.map_congr_left fun index _ => ?_
    rw [votesFor_cons voter voters index, Nat.add_assoc]

/-- **The true tally counts the voters who marked a selection.** -/
theorem trueTally_eq (voters : List (Voter contest)) :
    trueTally voters = (List.range contest.selections).map (votesFor voters) := by
  have hzero : List.replicate contest.selections 0 =
      (List.range contest.selections).map fun _ => 0 := by simp
  rw [trueTally, hzero, foldl_zipWith_votes]
  simp only [Nat.zero_add]

theorem sum_column (voters : List (Voter contest)) (index : Nat) :
    ((voters.filterMap fun voter => voter.choices[index]?).map Choice.vote).sum =
      votesFor voters index := by
  induction voters with
  | nil => rfl
  | cons voter voters ih =>
    rw [votesFor_cons, ← ih, votesFor, List.countP_singleton, List.getElem?_map]
    cases hchoice : voter.choices[index]? with
    | none => simp [hchoice]
    | some choice =>
      have hvote := voter.vote_mem_marks (List.mem_of_getElem? hchoice)
      simp only [List.filterMap_cons, hchoice, List.map_cons, List.sum_cons, Option.map_some,
        Option.some.injEq, decide_eq_true_eq]
      rcases hvote with hone | hzero
      · rw [hone, if_pos rfl]
      · rw [hzero, if_neg Nat.zero_ne_one]

/-- **What is decrypted is the true tally**, if there are fewer voters than exponents. -/
theorem countSelection_eq (hq : G.q.toNat.Prime) (secret : Scalar)
    (voters : List (Voter contest)) (hvoters : voters.length < G.q.toNat) (index : Nat) :
    countSelection G secret
        (voters.map fun voter => voter.choices.map (castChoice (G.exponent secret • G.base)))
        (votesFor voters index) index =
      print (tallyLine (votesFor voters index) index) := by
  set κ := G.exponent secret • G.base
  set chosen := voters.filterMap fun voter => voter.choices[index]? with hchosen
  have hcolumn : ((voters.map fun voter => voter.choices.map (castChoice κ)).filterMap fun ballot =>
      ballot[index]?) = chosen.map (castChoice κ) := by
    simp only [hchosen, List.filterMap_map, List.map_filterMap, Function.comp_def,
      List.getElem?_map]
  have hvotes : (chosen.map fun choice => (choice.vote : ZMod G.q.toNat)).sum =
      votesFor voters index := by
    rw [← sum_column, Nat.cast_list_sum, List.map_map]
    rfl
  have hle : votesFor voters index ≤ voters.length := List.countP_le_length
  have hdecrypt := Ciphertext.decrypt?_ofClasses hq secret (votesFor voters index : ZMod G.q.toNat)
    (chosen.map fun choice => G.exponent (choice.nonce G)).sum (voters.length + 1)
  rw [ZMod.val_natCast, Nat.mod_eq_of_lt (hle.trans_lt hvoters),
    if_pos (Nat.lt_succ_of_le hle)] at hdecrypt
  have haggregate : Ciphertext.aggregate G (chosen.map (castChoice κ)) = .ofClasses κ
      (votesFor voters index) (chosen.map fun choice => G.exponent (choice.nonce G)).sum := by
    rw [← hvotes]
    exact Ciphertext.aggregate_ofClasses κ _ _ _
  rw [countSelection, List.length_map, hcolumn, haggregate, hdecrypt, if_pos rfl]

/-! ### The whole election -/

/-- What is printed by an election that succeeds. -/
def report (G : SchnorrGroup) (voters : List (Voter contest)) : Printed where
  out := G.display :: (List.range contest.selections).map
    (fun index => tallyLine (votesFor voters index) index) ++ ["The election is a success!"]

theorem run_bind {α β : Type} {m : Step α} {k : α → Step β} {p p' : Printed} {a : α}
    (h : m.run.run p = (.ok a, p')) : (m >>= k).run.run p = (k a).run.run p' := by
  rw [ExceptT.run_bind, StateT.run_bind, h]
  rfl

theorem forM_print {α : Type} {f : α → Step Unit} {line : α → String} {as : List α}
    (h : ∀ a ∈ as, f a = print (line a)) (p : Printed) :
    (as.forM f).run.run p = (.ok (), { p with out := p.out ++ as.map line }) := by
  induction as generalizing p with
  | nil => rw [List.map_nil, List.append_nil]; rfl
  | cons a as ih =>
    have hfirst : (f a).run.run p = (.ok (), { p with out := p.out ++ [line a] }) := by
      rw [h a List.mem_cons_self]
      rfl
    have hrest := ih fun a' ha' => h a' (List.mem_cons_of_mem a ha')
    rw [List.forM_eq_forM, List.forM_cons, run_bind hfirst, ← List.forM_eq_forM, hrest,
      List.append_assoc, List.singleton_append, List.map_cons]

/-- **An election in a group of prime order succeeds.** -/
theorem run_eq (H : HashFunction) (hq : G.q.toNat.Prime) {secret : Scalar} {keys : KeyPair}
    (hkeys : KeyPair.ofSecret G secret = .ok keys)
    (hlimit : contest.limit < min G.q.toNat 1000000000) {voters : List (Voter contest)}
    (hvoters : voters.length < G.q.toNat) (hnonces : ∀ voter ∈ voters, voter.HasNonces G) :
    (run H G keys voters).run.run {} = (.ok (), report G voters) := by
  obtain ⟨-, -, rfl⟩ := KeyPair.ofSecret_eq_ok_iff.1 hkeys
  have hcast : voters.mapM (castBallot H G (G.generatorPow secret)) = pure
      (voters.map fun voter => voter.choices.map (castChoice (G.exponent secret • G.base))) := by
    rw [generatorPow_eq]
    exact mapM_eq_pure fun voter hvoter =>
      castBallot_eq H _ hlimit voter (hnonces voter hvoter)
  have htally : (trueTally voters).zipIdx =
      (List.range contest.selections).map fun index => (votesFor voters index, index) := by
    rw [trueTally_eq]
    exact List.ext_getElem (by simp) fun _ _ _ => by simp
  have hcount : ∀ tally ∈ (trueTally voters).zipIdx,
      countSelection G secret
          (voters.map fun voter => voter.choices.map (castChoice (G.exponent secret • G.base)))
          tally.1 tally.2 =
        print (tallyLine tally.1 tally.2) := by
    rw [htally]
    intro tally hmem
    obtain ⟨index, -, rfl⟩ := List.mem_map.1 hmem
    exact countSelection_eq hq secret voters hvoters index
  rw [run, run_bind (m := print G.display) rfl, hcast, pure_bind, run_bind (forM_print hcount _),
    htally, List.map_map]
  rfl

example (H : HashFunction) :
    let voter : Voter .sample := ⟨[0, 1, 1, 0].map fun vote => ⟨vote, [0, 3], 1⟩, 2, by decide⟩
    (run H .small smallKeys [voter]).run.run {} = (.ok (), report .small [voter]) :=
  run_eq H small_q_prime ofSecret_small (by decide) (by decide)
    (by simp only [List.mem_singleton, forall_eq, Voter.HasNonces]; decide +kernel)

/-- **The sample election succeeds** for the group and the key pair that are found, if what is drawn
as an order is a prime of 64 bits. -/
theorem simple_eq (H : HashFunction) {isPrime : Word → Bool} {draws : Draws} {attempts : Nat}
    (hprime : ∀ q, draws.prime 64 = some q → q.toNat.Prime ∧ q.toNat.size = 64)
    (hsearch : SchnorrGroup.search isPrime draws attempts 64 256 = some (.ok G))
    {secrets : List Word} {keys : KeyPair} (hkeys : KeyPair.ofDraws? G secrets = some keys)
    {voters : List (Voter .sample)} (hvoters : voters.length < 2 ^ 63)
    (hnonces : ∀ voter ∈ voters, voter.HasNonces G) :
    simple H isPrime draws attempts secrets voters = some (true, report G voters) := by
  have husable : SchnorrGroup.usableBitLengths 64 256 = true := by decide
  obtain ⟨q, hq, _, _, -, _, -, hwords⟩ := (search_eq_some_iff husable).1 hsearch
  obtain ⟨-, rfl, -⟩ := ofWords_eq_ok_iff.1 hwords
  obtain ⟨hq, hsize⟩ := hprime G.q hq
  have hlarge : 2 ^ 63 ≤ G.q.toNat := Nat.lt_size.1 (by omega)
  obtain ⟨w, -, hw⟩ := KeyPair.exists_of_ofDraws? hkeys
  have hlimit : Contest.sample.limit < min G.q.toNat 1000000000 := by
    have htwo : Contest.sample.limit = 2 := rfl
    omega
  have hrun := run_eq H hq hw hlimit (by omega) hnonces
  simp only [simple, hsearch, hkeys, Option.bind_eq_bind, Option.bind_some]
  rw [hrun]
  rfl

end Election

end BallotProof
