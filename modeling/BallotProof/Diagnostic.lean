import BallotProof.ConstantProof
import BallotProof.DisjunctiveProof

/-!
# Verification and diagnostics

A proof is valid if all its checks pass. What is wrong with an invalid one goes to a sink; the
verdict never depends on the sink.

* `Proof.verifyWith` verifies with any sink, `Proof.verify` logs diagnostics as events.
* `report_of_isValid`, `report_of_not_isValid` : the sink is called once for an invalid proof and
  not at all for a valid one.
-/

namespace BallotProof

/-- A proof of either kind. -/
inductive Proof where
  /-- A proof that a selection is zero or one. -/
  | disjunctive (proof : DisjunctiveProof)
  /-- A proof of a known plaintext. -/
  | constant (proof : ConstantProof)
deriving DecidableEq

/-- The proof as a record. -/
def Proof.dump : Proof → String
  | .disjunctive proof => Text.wrapped "Disjunctive" proof.dump
  | .constant proof => Text.wrapped "Constant" proof.dump

/-- What is known about a failed verification. -/
structure Diagnostic where
  /-- What happened. -/
  message : String
  /-- All checks by name, passed or not. -/
  checks : Checks
  /-- The public key that the proof was checked against. -/
  publicKey : Element
  /-- The proof. -/
  proof : Proof
deriving DecidableEq

/-- The diagnostic as a warning. -/
def Diagnostic.event (d : Diagnostic) : Event where
  level := .warn
  message := d.message
  fields :=
    [("failed", Text.quoteList d.checks.failed), ("checks", Text.quotePairs d.checks),
      ("k", d.publicKey.toHex)]
  records := [("proof", d.proof.dump)]

/-- The diagnostic of an invalid proof. -/
def Diagnostic.invalid (checks : Checks) (publicKey : Element) (proof : Proof) : Diagnostic where
  message := "found an invalid Chaum-Pedersen proof"
  checks := checks
  publicKey := publicKey
  proof := proof

/-- Turns checks into a verdict and reports an invalid proof to the sink. -/
def report {m : Type → Type} [Monad m] (checks : Checks) (publicKey : Element) (proof : Proof)
    (sink : Diagnostic → m Unit) : m Bool :=
  if checks.isValid then pure true
  else do
    sink (.invalid checks publicKey proof)
    return false

theorem report_of_isValid {m : Type → Type} [Monad m] {checks : Checks} (publicKey : Element)
    (proof : Proof) (sink : Diagnostic → m Unit) (h : checks.isValid = true) :
    report checks publicKey proof sink = pure true := by
  rw [report, if_pos h]

theorem report_of_not_isValid {m : Type → Type} [Monad m] {checks : Checks} (publicKey : Element)
    (proof : Proof) (sink : Diagnostic → m Unit) (h : checks.isValid = false) :
    report checks publicKey proof sink =
      (do sink (.invalid checks publicKey proof); return false) := by
  rw [report, if_neg (by simp [h])]

/-- A sink that keeps the diagnostics in order. -/
def recordSink (d : Diagnostic) : StateM (List Diagnostic) Unit :=
  modify fun ds => ds ++ [d]

/-- A sink that logs every diagnostic as an event. -/
def eventSink (d : Diagnostic) : StateM (List Event) Unit :=
  modify fun es => es ++ [d.event]

namespace Proof

/-- The event that a proof has been made. -/
def made : Proof → Event
  | .disjunctive proof => proof.made
  | .constant proof => proof.made

variable (H : HashFunction) (G : SchnorrGroup)

/-- All checks by name. -/
def checks (x : Ciphertext) (key : Element) : Proof → Checks
  | .disjunctive proof => proof.checks H G x key
  | .constant proof => proof.checks H G x key

/-- Verifies the proof and reports to the sink if it is invalid. -/
def verifyWith {m : Type → Type} [Monad m] (x : Ciphertext) (key : Element)
    (sink : Diagnostic → m Unit) (proof : Proof) : m Bool :=
  report (proof.checks H G x key) key proof sink

/-- The verdict, and the events that are logged on the way. -/
def verify (x : Ciphertext) (key : Element) (proof : Proof) : Bool × List Event :=
  (proof.verifyWith H G x key eventSink).run []

variable {H G}

/-- The verdict is that all checks pass. -/
theorem verify_fst (x : Ciphertext) (key : Element) (proof : Proof) :
    (proof.verify H G x key).1 = (proof.checks H G x key).isValid := by
  unfold verify verifyWith
  cases h : (proof.checks H G x key).isValid with
  | true => rw [report_of_isValid _ _ _ h]; rfl
  | false => rw [report_of_not_isValid _ _ _ h]; rfl

end Proof

end BallotProof
