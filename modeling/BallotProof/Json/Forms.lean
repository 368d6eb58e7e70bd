import BallotProof.Diagnostic
import BallotProof.Json.Record

/-!
# Json forms of elements, ciphertexts and proofs

Elements and scalars are texts in hex, ciphertexts and proofs are records of them.

* `toJson` writes each type, `ofJson` reads it; for records, `ofFields` puts the fields together.
-/

namespace BallotProof

namespace Element

/-- The json form. -/
def toJson (x : Element) : Json := .ofWord x.toWord

/-- The element that a json value stands for. -/
def ofJson (value : Json) : Except JsonError Element :=
  value.toWord.map Element.mk

end Element

namespace Scalar

/-- The json form. -/
def toJson (x : Scalar) : Json := .ofWord x.toWord

/-- The scalar that a json value stands for. -/
def ofJson (value : Json) : Except JsonError Scalar :=
  value.toWord.map Scalar.mk

end Scalar

namespace Ciphertext

/-- The record of a ciphertext. -/
def shape : Record := ⟨"ElGamalCiphertext", [("alpha", .word), ("beta", .word)]⟩

/-- The json form. -/
def toJson (x : Ciphertext) : Json :=
  .object [("alpha", x.alpha.toJson), ("beta", x.beta.toJson)]

/-- The ciphertext with the given fields. -/
def ofFields (fields : Fields) : Except JsonError Ciphertext := do
  let alpha ← fields.word shape "alpha"
  let beta ← fields.word shape "beta"
  return ⟨⟨alpha⟩, ⟨beta⟩⟩

/-- The ciphertext that a json value stands for. -/
def ofJson (value : Json) : Except JsonError Ciphertext :=
  shape.read ofFields value

end Ciphertext

namespace DisjunctiveProof

/-- The record of a zero-or-one proof. -/
def shape : Record :=
  ⟨"DisjunctiveProof",
    [("a0", .word), ("b0", .word), ("a1", .word), ("b1", .word), ("c0", .word), ("c1", .word),
      ("v0", .word), ("v1", .word)]⟩

/-- The json form. -/
def toJson (proof : DisjunctiveProof) : Json :=
  .object
    [("a0", proof.zero.a.toJson), ("b0", proof.zero.b.toJson), ("a1", proof.one.a.toJson),
      ("b1", proof.one.b.toJson), ("c0", proof.zero.c.toJson), ("c1", proof.one.c.toJson),
      ("v0", proof.zero.v.toJson), ("v1", proof.one.v.toJson)]

/-- The proof with the given fields. -/
def ofFields (fields : Fields) : Except JsonError DisjunctiveProof := do
  let a0 ← fields.word shape "a0"
  let b0 ← fields.word shape "b0"
  let a1 ← fields.word shape "a1"
  let b1 ← fields.word shape "b1"
  let c0 ← fields.word shape "c0"
  let c1 ← fields.word shape "c1"
  let v0 ← fields.word shape "v0"
  let v1 ← fields.word shape "v1"
  return {
    zero := { a := ⟨a0⟩, b := ⟨b0⟩, c := ⟨c0⟩, v := ⟨v0⟩ }
    one := { a := ⟨a1⟩, b := ⟨b1⟩, c := ⟨c1⟩, v := ⟨v1⟩ } }

/-- The proof that a json value stands for. -/
def ofJson (value : Json) : Except JsonError DisjunctiveProof :=
  shape.read ofFields value

end DisjunctiveProof

namespace ConstantProof

/-- The record of a proof of a known plaintext. -/
def shape : Record :=
  ⟨"ConstantProof",
    [("a", .word), ("b", .word), ("c", .word), ("v", .word), ("constant", .integer)]⟩

/-- The json form. -/
def toJson (proof : ConstantProof) : Json :=
  .object
    [("a", proof.a.toJson), ("b", proof.b.toJson), ("c", proof.c.toJson),
      ("v", proof.v.toJson), ("constant", .ofInt64 proof.constant)]

/-- The proof with the given fields. -/
def ofFields (fields : Fields) : Except JsonError ConstantProof := do
  let a ← fields.word shape "a"
  let b ← fields.word shape "b"
  let c ← fields.word shape "c"
  let v ← fields.word shape "v"
  let constant ← fields.integer shape "constant"
  return { a := ⟨a⟩, b := ⟨b⟩, c := ⟨c⟩, v := ⟨v⟩, constant }

/-- The proof that a json value stands for. -/
def ofJson (value : Json) : Except JsonError ConstantProof :=
  shape.read ofFields value

end ConstantProof

/-- The json form. -/
def Proof.toJson : Proof → Json
  | .disjunctive proof => proof.toJson
  | .constant proof => proof.toJson

end BallotProof
