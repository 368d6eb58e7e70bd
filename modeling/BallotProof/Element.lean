import BallotProof.Hex

/-!
# Elements and scalars

Two kinds of words: those meant modulo the large prime of a group, and those meant as exponents,
modulo the order of its subgroup. Neither is reduced or checked on construction.
-/

namespace BallotProof

/-- A word that is meant as an element of the group. -/
@[ext]
structure Element extends Word
deriving DecidableEq

/-- A word that is meant as an exponent. -/
@[ext]
structure Scalar extends Word
deriving DecidableEq

namespace Element

/-- The integer modulo `2 ^ 4096` as an element. -/
def ofNat (n : Nat) : Element := ⟨Word.ofNat n⟩

instance (n : Nat) : OfNat Element n := ⟨ofNat n⟩

/-- The element that a text in hex stands for. -/
def ofHex? (s : String) : Except WordError Element :=
  (Word.ofHex? s).map Element.mk

/-- The element as a record. -/
def dump (x : Element) : String := Text.wrapped "ElementModP" x.toWord.dump

theorem eq_iff {x y : Element} : x = y ↔ x.toNat = y.toNat :=
  ⟨fun h => h ▸ rfl, Element.ext⟩

end Element

namespace Scalar

/-- The integer modulo `2 ^ 4096` as a scalar. -/
def ofNat (n : Nat) : Scalar := ⟨Word.ofNat n⟩

instance (n : Nat) : OfNat Scalar n := ⟨ofNat n⟩

/-- The scalar that a text in hex stands for. -/
def ofHex? (s : String) : Except WordError Scalar :=
  (Word.ofHex? s).map Scalar.mk

/-- The scalar as a record. -/
def dump (x : Scalar) : String := Text.wrapped "ElementModQ" x.toWord.dump

theorem eq_iff {x y : Scalar} : x = y ↔ x.toNat = y.toNat :=
  ⟨fun h => h ▸ rfl, Scalar.ext⟩

end Scalar

end BallotProof
