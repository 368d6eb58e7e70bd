import BallotProof.Diagnostic

/-!
# Changed proofs

Ways to change one field of a proof and leave the others as they are: to another value, to another
representative of the same residue class, or to a related value.

* `Proof.slot?` finds a field by its name.
* `Slot.shift`, `Slot.bump` and `Slot.negate` change it.
-/

namespace BallotProof

/-- A field of a proof, and the proof with another value in its place. -/
inductive Slot where
  /-- A field that holds an element. -/
  | element (value : Element) (put : Element → Proof)
  /-- A field that holds a scalar. -/
  | scalar (value : Scalar) (put : Scalar → Proof)
  /-- The field that holds the claimed plaintext. -/
  | constant (put : Int64 → Proof)

/-- The fields of a transcript, by the first letter of their names. -/
def Transcript.slot? (t : Transcript) (put : Transcript → Proof) : Char → Option Slot
  | 'a' => some (.element t.a fun a => put { t with a })
  | 'b' => some (.element t.b fun b => put { t with b })
  | 'c' => some (.scalar t.c fun c => put { t with c })
  | 'v' => some (.scalar t.v fun v => put { t with v })
  | _ => none

/-- The field of a name: a letter and the plaintext of the branch. -/
def DisjunctiveProof.slot? (proof : DisjunctiveProof) (name : String) : Option Slot :=
  match name.toList with
  | [letter, '0'] =>
    proof.zero.slot? (fun zero => .disjunctive { proof with zero }) letter
  | [letter, '1'] =>
    proof.one.slot? (fun one => .disjunctive { proof with one }) letter
  | _ => none

/-- The field of a name. -/
def ConstantProof.slot? (proof : ConstantProof) (name : String) : Option Slot :=
  if name = "constant" then some (.constant fun constant => .constant { proof with constant })
  else
    match name.toList with
    | [letter] =>
      proof.toTranscript.slot? (fun t => .constant ⟨t, proof.constant⟩) letter
    | _ => none

/-- The field of a name. -/
def Proof.slot? (proof : Proof) (name : String) : Option Slot :=
  match proof with
  | .disjunctive proof => proof.slot? name
  | .constant proof => proof.slot? name

namespace Slot

variable (G : SchnorrGroup)

/-- The value plus its modulus, modulo `2 ^ 4096`. -/
def shift : Slot → Option Proof
  | .element x put => some (put ⟨x.toWord + G.p⟩)
  | .scalar x put => some (put ⟨x.toWord + G.q⟩)
  | .constant _ => none

/-- An element times the generator, a scalar plus one. -/
def bump : Slot → Option Proof
  | .element x put => some (put (G.prod [x, G.generator]))
  | .scalar x put => some (put (G.add x 1))
  | .constant _ => none

/-- The modulus minus an element, modulo `2 ^ 4096`; the opposite of a scalar. -/
def negate : Slot → Option Proof
  | .element x put => some (put ⟨G.p - x.toWord⟩)
  | .scalar x put => some (put (G.neg x))
  | .constant _ => none

end Slot

end BallotProof
