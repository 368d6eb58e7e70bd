import BallotProof.Diagnostic
import BallotProof.Proofs.HexText
import Mathlib

/-!
# Warnings identify the proof

The warning about an invalid proof writes the whole proof out as a record.  Words are written with
all their bytes, so that a field takes the same number of characters in every proof.  Only the
claimed plaintext of a constant proof does not, and it stands last.  So two proofs that look the
same in the log are the same.

* `Word.dump_injective`, `Word.length_dump_eq` : words of one length that can be told apart.
* `Proof.dump_injective` : **different proofs have different records**, of either kind.
* `Diagnostic.eq_of_event_eq` : the warning says what was verified against which key.
-/

namespace BallotProof

/-! ### Words -/

namespace Word

theorem dump_injective {w w' : Word} (h : w.dump = w'.dump) : w = w' := by
  have htexts := String.ofList_injective ((String.append_right_inj _).1 (Text.wrapped_injective h))
  have hdigits : Hex.encode w.toBytes = Hex.encode w'.toBytes := by
    rw [← Hex.utf8_map_encode, htexts, Hex.utf8_map_encode]
  have hbytes := congrArg Hex.decode hdigits
  rw [Hex.decode_encode, Hex.decode_encode, Except.ok.injEq] at hbytes
  exact toBytes_injective hbytes

theorem length_dump_eq (w w' : Word) : w.dump.length = w'.dump.length := by
  simp only [dump, Text.wrapped, String.length_append, String.length_ofList, List.length_map,
    Hex.length_encode, length_toBytes]

end Word

namespace Element

theorem dump_injective {x x' : Element} (h : x.dump = x'.dump) : x = x' :=
  Element.ext (congrArg Word.toNat (Word.dump_injective (Text.wrapped_injective h)))

theorem length_dump_eq (x x' : Element) : x.dump.length = x'.dump.length := by
  simp only [dump, Text.wrapped, String.length_append, x.toWord.length_dump_eq x'.toWord]

end Element

namespace Scalar

theorem dump_injective {x x' : Scalar} (h : x.dump = x'.dump) : x = x' :=
  Scalar.ext (congrArg Word.toNat (Word.dump_injective (Text.wrapped_injective h)))

theorem length_dump_eq (x x' : Scalar) : x.dump.length = x'.dump.length := by
  simp only [dump, Text.wrapped, String.length_append, x.toWord.length_dump_eq x'.toWord]

end Scalar

/-! ### Proofs -/

theorem DisjunctiveProof.dump_injective {proof proof' : DisjunctiveProof}
    (h : proof.dump = proof'.dump) : proof = proof' := by
  have hfields := Text.record_injective (by simp only [List.map_cons, List.map_nil]) (by
    simp only [List.dropLast, List.map_cons, List.map_nil, List.cons.injEq, and_true]
    exact ⟨Element.length_dump_eq _ _, Element.length_dump_eq _ _, Element.length_dump_eq _ _,
      Element.length_dump_eq _ _, Scalar.length_dump_eq _ _, Scalar.length_dump_eq _ _,
      Scalar.length_dump_eq _ _⟩) h
  simp only [List.cons.injEq, Prod.mk.injEq, true_and, and_true] at hfields
  obtain ⟨ha0, hb0, ha1, hb1, hc0, hc1, hv0, hv1⟩ := hfields
  exact DisjunctiveProof.ext
    (Transcript.ext (Element.dump_injective ha0) (Element.dump_injective hb0)
      (Scalar.dump_injective hc0) (Scalar.dump_injective hv0))
    (Transcript.ext (Element.dump_injective ha1) (Element.dump_injective hb1)
      (Scalar.dump_injective hc1) (Scalar.dump_injective hv1))

theorem ConstantProof.dump_injective {proof proof' : ConstantProof}
    (h : proof.dump = proof'.dump) : proof = proof' := by
  have hfields := Text.record_injective (by simp only [List.map_cons, List.map_nil]) (by
    simp only [List.dropLast, List.map_cons, List.map_nil, List.cons.injEq, and_true]
    exact ⟨Element.length_dump_eq _ _, Element.length_dump_eq _ _, Scalar.length_dump_eq _ _,
      Scalar.length_dump_eq _ _⟩) h
  simp only [List.cons.injEq, Prod.mk.injEq, true_and, and_true] at hfields
  obtain ⟨ha, hb, hc, hv, hconstant⟩ := hfields
  have hvalue : proof.constant = proof'.constant := Int64.toInt_inj.1 (Int.repr_inj.1 hconstant)
  exact ConstantProof.ext (Element.dump_injective ha) (Element.dump_injective hb)
    (Scalar.dump_injective hc) (Scalar.dump_injective hv) hvalue

/-- **Different proofs have different records.** -/
theorem Proof.dump_injective {proof proof' : Proof} (h : proof.dump = proof'.dump) :
    proof = proof' := by
  cases proof with
  | disjunctive proof =>
    cases proof' with
    | disjunctive proof' => rw [DisjunctiveProof.dump_injective (Text.wrapped_injective h)]
    | constant proof' => exact absurd (congrArg String.toList h) (by simp [dump, Text.wrapped])
  | constant proof =>
    cases proof' with
    | disjunctive proof' => exact absurd (congrArg String.toList h) (by simp [dump, Text.wrapped])
    | constant proof' => rw [ConstantProof.dump_injective (Text.wrapped_injective h)]

/-- **The warning says what was verified against which key.** -/
theorem Diagnostic.eq_of_event_eq {d d' : Diagnostic} (h : d.event = d'.event) :
    d.message = d'.message ∧ d.publicKey = d'.publicKey ∧ d.proof = d'.proof := by
  simp only [event, Event.mk.injEq, List.cons.injEq, Prod.mk.injEq, true_and, and_true] at h
  obtain ⟨hmessage, ⟨-, -, hkey⟩, hproof⟩ := h
  have hword := congrArg Word.ofHex? hkey
  rw [Word.ofHex?_toHex, Word.ofHex?_toHex, Except.ok.injEq] at hword
  exact ⟨hmessage, Element.ext (congrArg Word.toNat hword), Proof.dump_injective hproof⟩

end BallotProof
