import BallotProof.Proofs.Verdicts

/-!
# What a verification reports

A verifier runs every check of the kind of proof, lists the outcomes by name and turns the list into
a verdict.  A sink hears of an invalid proof, once, and of nothing else.  It may be any action in
any monad: it may record, log or fail, but the verdict is fixed before it is called.

* `Proof.Outcome` is the record of the checks of either kind of proof, and
  `Proof.outcome?_checks_iff` says that the list contains just this record.
* `Proof.run_verifyWith` : whatever state a sink keeps, the verdict is the same, and the state
  changes only by one report of an invalid proof.
* `Proof.verdict_reported` : **all routes to a verdict agree, and the report says what was
  checked.**
-/

namespace BallotProof

open SchnorrGroup

variable {H : HashFunction} {G : SchnorrGroup} {x : Ciphertext} {key : Element}

namespace Proof

/-! ### The record of the checks -/

/-- The check with the name has the outcome, for the kind of proof that is verified. -/
inductive Outcome (H : HashFunction) (G : SchnorrGroup) (x : Ciphertext) (key : Element) :
    Proof → String → Bool → Prop where
  /-- A check of a zero-or-one proof. -/
  | disjunctive (proof : DisjunctiveProof) (i : DisjunctiveCheck) :
    Outcome H G x key (.disjunctive proof) i.name
      (proof.holds G (proof.derivedChallenge H G x) x key i)
  /-- A check of a proof of a known plaintext. -/
  | constant (proof : ConstantProof) (i : ConstantCheck) :
    Outcome H G x key (.constant proof) i.name
      (proof.holds G (proof.derivedChallenge H G x) x key i)

variable {proof : Proof} {name : String} {b : Bool}

theorem mem_checks_iff : (name, b) ∈ proof.checks H G x key ↔ proof.Outcome H G x key name b := by
  refine ⟨fun h => ?_, fun h => ?_⟩
  · cases proof with
    | disjunctive proof =>
      obtain ⟨i, -, hi⟩ := List.mem_map.1 h
      obtain ⟨rfl, rfl⟩ := Prod.mk.inj hi
      exact .disjunctive proof i
    | constant proof =>
      obtain ⟨i, -, hi⟩ := List.mem_map.1 h
      obtain ⟨rfl, rfl⟩ := Prod.mk.inj hi
      exact .constant proof i
  · cases h with
    | disjunctive proof i => exact List.mem_map.2 ⟨i, DisjunctiveCheck.mem_all i, rfl⟩
    | constant proof i => exact List.mem_map.2 ⟨i, ConstantCheck.mem_all i, rfl⟩

theorem nodup_checks (proof : Proof) : ((proof.checks H G x key).map Prod.fst).Nodup := by
  cases proof with
  | disjunctive proof =>
    simpa [checks, DisjunctiveProof.checks, Function.comp_def] using DisjunctiveCheck.nodup_names
  | constant proof =>
    simpa [checks, ConstantProof.checks, Function.comp_def] using ConstantCheck.nodup_names

theorem outcome?_checks_iff :
    (proof.checks H G x key).outcome? name = some b ↔ proof.Outcome H G x key name b := by
  rw [Checks.outcome?_eq_some_iff_mem proof.nodup_checks, mem_checks_iff]

theorem isValid_checks_iff :
    (proof.checks H G x key).isValid = true ↔
      ∀ name b, proof.Outcome H G x key name b → b = true := by
  rw [Checks.isValid, List.all_eq_true]
  refine ⟨fun h name b hb => ?_, fun h item hitem => ?_⟩
  · exact h (name, b) (mem_checks_iff.2 hb)
  · exact h item.1 item.2 (mem_checks_iff.1 hitem)

theorem outcome?_checks_eq_false_iff :
    (proof.checks H G x key).outcome? name = some false ↔
      name ∈ (proof.checks H G x key).failed := by
  rw [Checks.outcome?_eq_some_iff_mem proof.nodup_checks, Checks.mem_failed]

/-! ### The verdict and the sink -/

/-- A sink may keep any state.  The verdict does not depend on it, and only the report of an invalid
proof changes it. -/
theorem run_verifyWith {σ : Type} (sink : Diagnostic → StateM σ Unit) (s : σ) (proof : Proof) :
    (proof.verifyWith H G x key sink).run s =
      ((proof.checks H G x key).isValid,
        if (proof.checks H G x key).isValid then s
        else ((sink (.invalid (proof.checks H G x key) key proof)).run s).2) := by
  unfold verifyWith
  by_cases h : (proof.checks H G x key).isValid = true
  · rw [report_of_isValid _ _ _ h, if_pos h, h]
    rfl
  · rw [Bool.not_eq_true] at h
    rw [report_of_not_isValid _ _ _ h, h]
    rfl

theorem verify_eq (proof : Proof) :
    proof.verify H G x key =
      ((proof.checks H G x key).isValid,
        if (proof.checks H G x key).isValid then []
        else [(Diagnostic.invalid (proof.checks H G x key) key proof).event]) :=
  run_verifyWith eventSink [] proof

/-- **All routes to a verdict agree, and the report says what was checked.**  For any words and
every hash function, the list of the checks has different names and consists of the outcomes in the
record of the kind of proof, so that a check is found with the outcome `false` exactly if its name
is among the failed ones.  Both verifiers answer whether every check of the record passed.  If so,
no sink is called and nothing is logged.  If not, every sink is called once, with these checks, the
key and the proof as they were given, and some check is named as failed.

For lists of checks whose names may repeat: all passed if and only if none is named as failed, the
failed names are the longest list, in order, of checks that failed, and what is found for a name
belongs to the first check of this name, if there is one. -/
theorem verdict_reported (H : HashFunction) (G : SchnorrGroup) (x : Ciphertext) (key : Element)
    (proof : Proof) :
    (let checks := proof.checks H G x key
      let diagnostic : Diagnostic :=
        ⟨"found an invalid Chaum-Pedersen proof", checks, key, proof⟩
      (checks.map Prod.fst).Nodup ∧
      (∀ name b, checks.outcome? name = some b ↔ proof.Outcome H G x key name b) ∧
      (∀ name, checks.outcome? name = some false ↔ name ∈ checks.failed) ∧
      (checks.isValid = true ↔ ∀ name b, proof.Outcome H G x key name b → b = true) ∧
      (proof.verify H G x key).1 = checks.isValid ∧
      (checks.isValid = true → (proof.verify H G x key).2 = [] ∧
        ∀ (M : Type → Type) [Monad M] (sink : Diagnostic → M Unit),
          proof.verifyWith H G x key sink = pure true) ∧
      (checks.isValid = false → checks.failed ≠ [] ∧
        (proof.verify H G x key).2 = [diagnostic.event] ∧
        ∀ (M : Type → Type) [Monad M] (sink : Diagnostic → M Unit),
          proof.verifyWith H G x key sink = do
            sink diagnostic
            return false)) ∧
    ∀ checks : Checks,
      (checks.isValid = true ↔ checks.failed = []) ∧
      (∀ names : List String, names.Sublist checks.failed ↔
        (names.map fun name => (name, false)).Sublist checks) ∧
      (∀ name b, checks.outcome? name = some b ↔
        ∃ before after, checks = before ++ (name, b) :: after ∧ name ∉ before.map Prod.fst) ∧
      ∀ name, checks.outcome? name = none ↔ name ∉ checks.map Prod.fst := by
  refine ⟨⟨proof.nodup_checks, fun _ _ => outcome?_checks_iff,
    fun _ => outcome?_checks_eq_false_iff, isValid_checks_iff, verify_fst x key proof,
    fun h => ⟨?_, ?_⟩, fun h => ⟨?_, ?_, ?_⟩⟩,
    fun checks => ⟨Checks.isValid_iff, fun _ => Checks.sublist_failed_iff,
    fun _ _ => Checks.outcome?_eq_some_iff, fun _ => Checks.outcome?_eq_none_iff⟩⟩
  · simp [verify_eq, h]
  · exact fun M _ sink => verifyWith_of_isValid sink h
  · rw [ne_eq, ← Checks.isValid_iff, h]
    exact Bool.false_ne_true
  · simp [verify_eq, h, Diagnostic.invalid]
  · exact fun M _ sink => report_of_not_isValid key proof sink h

/-- Proofs for the ciphertext of zero with the nonce zero, where every challenge is zero and the
key is not reduced: a zero-or-one proof that passes, and a proof of the plaintext zero with a
response that fits neither equation. -/
theorem verdict_reported_small :
    let H : HashFunction := fun _ => Vector.replicate 32 0
    let one := small.toElement 1
    let key : Element := ⟨⟨41, Word.lt_limit_of_lt (by decide)⟩⟩
    let run := fun v => Transcript.mk ⟨one, one⟩ (small.toScalar 0) (small.toScalar v)
    let good : Proof := .disjunctive ⟨run 0, run 0⟩
    let bad : Proof := .constant ⟨run 1, 0⟩
    let badChecks := bad.checks H small ⟨one, one⟩ key
    ((good.checks H small ⟨one, one⟩ key).isValid = true ∧
        good.verifyWith H small ⟨one, one⟩ key recordSink = pure true) ∧
      (badChecks.isValid = false ∧
        bad.verifyWith H small ⟨one, one⟩ key recordSink = (do
          recordSink ⟨"found an invalid Chaum-Pedersen proof", badChecks, key, bad⟩
          return false)) ∧
      badChecks.failed = ["consistent_gv", "consistent_kv"] ∧
      badChecks.outcome? "consistent_kv" = some false := by
  intro H one key run good bad badChecks
  have hgood : (good.checks H small ⟨one, one⟩ key).isValid = true :=
    DisjunctiveProof.isValid_of_derivedChallenge challenge_eq_toScalar (by decide +kernel)
  have hbad : badChecks.failed = ["consistent_gv", "consistent_kv"] := by
    decide +kernel
  have hinvalid : badChecks.isValid = false := by
    rw [← Bool.not_eq_true, Checks.isValid_iff, hbad]
    exact List.cons_ne_nil _ _
  obtain ⟨⟨-, -, -, -, -, hquiet, -⟩, -⟩ := verdict_reported H small ⟨one, one⟩ key good
  obtain ⟨⟨-, -, hnamed, -, -, -, hcalled⟩, -⟩ := verdict_reported H small ⟨one, one⟩ key bad
  refine ⟨⟨hgood, (hquiet hgood).2 _ recordSink⟩, ⟨hinvalid, (hcalled hinvalid).2.2 _ recordSink⟩,
    hbad, (hnamed _).2 ?_⟩
  rw [hbad]
  decide

end Proof

end BallotProof
