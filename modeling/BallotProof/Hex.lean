import BallotProof.Word
import BallotProof.Text.Blank
import BallotProof.Text.Quoted
import BallotProof.Text.Record

/-!
# Hexadecimal text

Words are written in upper-case hex, two digits a byte, without leading zero bytes. Reading is
lenient: blanks at both ends, one `0x` or `0X` in front, either case, an odd number of digits and
leading zeros are all accepted.

* `Hex.encode` and `Hex.decode` convert between bytes and digits; `Hex.decode` stops at the first
  byte that is no digit.
* `Word.toHex` and `Word.ofHex?` write and read words.
* `Hex.decode_encode` : written digits are read back.
-/

namespace BallotProof

namespace Hex

/-! ### Digits -/

/-- The value of a digit of either case. -/
def digit? (b : UInt8) : Option UInt8 :=
  if 0x30 ≤ b && b ≤ 0x39 then some (b - 0x30)
  else if 0x41 ≤ b && b ≤ 0x46 then some (b - 0x37)
  else if 0x61 ≤ b && b ≤ 0x66 then some (b - 0x57)
  else none

/-- The upper-case digit of a value below sixteen. -/
def digit (v : UInt8) : UInt8 :=
  if v < 10 then v + 0x30 else v + 0x37

/-- The value of the digit at a position, or the defect found there. -/
def digitAt (position : Nat) (b : UInt8) : Except BadDigit UInt8 :=
  match digit? b with
  | some v => .ok v
  | none => .error ⟨b, position⟩

/-- The bytes that the digits from `position` on stand for, two digits a byte; a last digit
without a partner stands for itself. -/
def decodeFrom (position : Nat) : Bytes → Except BadDigit Bytes
  | [] => .ok []
  | [last] => do
    let low ← digitAt position last
    return [low]
  | first :: second :: rest => do
    let high ← digitAt position first
    let low ← digitAt (position + 1) second
    let bytes ← decodeFrom (position + 2) rest
    return (16 * high + low) :: bytes

/-- The bytes that the digits stand for. -/
def decode (digits : Bytes) : Except BadDigit Bytes :=
  decodeFrom 0 digits

/-- Two upper-case digits a byte. -/
def encode (bytes : Bytes) : Bytes :=
  bytes.flatMap fun b => [digit (b / 16), digit (b % 16)]

theorem digit?_digit {v : UInt8} (h : v < 16) : digit? (digit v) = some v := by
  have key : ∀ n : Fin 16, digit? (digit (UInt8.ofNat n)) = some (UInt8.ofNat n) := by decide
  have hv : v.toNat < 16 := UInt8.lt_iff_toNat_lt.1 h
  simpa using key ⟨v.toNat, hv⟩

theorem halves_lt (b : UInt8) : b / 16 < 16 ∧ b % 16 < 16 := by
  have hb : b.toNat < 256 := b.toNat_lt
  constructor
  · exact UInt8.lt_iff_toNat_lt.2 (by simp; omega)
  · exact UInt8.lt_iff_toNat_lt.2 (by simp; omega)

theorem decodeFrom_encode (position : Nat) (bytes : Bytes) :
    decodeFrom position (encode bytes) = .ok bytes := by
  induction bytes generalizing position with
  | nil => rfl
  | cons b bytes ih =>
    obtain ⟨high, low⟩ := halves_lt b
    have join : 16 * (b / 16) + b % 16 = b := by
      have hb : b.toNat < 256 := b.toNat_lt
      apply UInt8.toNat_inj.1
      simp only [UInt8.toNat_add, UInt8.toNat_mul, UInt8.toNat_div, UInt8.toNat_mod,
        UInt8.toNat_ofNat, Nat.reducePow, Nat.reduceMod]
      omega
    have step : encode (b :: bytes) = digit (b / 16) :: digit (b % 16) :: encode bytes := rfl
    simp only [step, decodeFrom, digitAt, digit?_digit high, digit?_digit low, ih]
    simp [bind, Except.bind, pure, Except.pure, join]

/-- Written digits are read back. -/
theorem decode_encode (bytes : Bytes) : decode (encode bytes) = .ok bytes :=
  decodeFrom_encode 0 bytes

@[simp] theorem length_encode (bytes : Bytes) : (encode bytes).length = 2 * bytes.length := by
  induction bytes with
  | nil => rfl
  | cons b bytes ih =>
    rw [encode, List.flatMap_cons, ← encode, List.length_append, ih]
    simp
    omega

/-! ### Texts -/

/-- The text without one `0x` or `0X` in front. -/
def dropMark : List Char → List Char
  | '0' :: 'x' :: rest => rest
  | '0' :: 'X' :: rest => rest
  | cs => cs

/-- An even number of digits, with a zero put in front if need be. -/
def pad (digits : Bytes) : Bytes :=
  if digits.length % 2 = 1 then 0x30 :: digits else digits

/-- The bytes of a text in UTF-8. -/
def utf8 (cs : List Char) : Bytes :=
  cs.flatMap String.utf8EncodeChar

/-- The digits of a text, read leniently: without blanks around and one mark in front. -/
def digits (s : String) : Bytes :=
  pad (utf8 (dropMark (Text.trim s.toList)))

/-- The bytes of a text that holds hex digits in pairs and nothing else. -/
def bytes? (s : String) : Option Bytes :=
  let digits := utf8 s.toList
  if digits.length % 2 = 0 then (decode digits).toOption else none

end Hex

/-- Names the byte as a character, and its position. -/
def BadDigit.message (d : BadDigit) : String :=
  "Invalid character " ++ Text.quoteChar (Char.ofNat d.byte.toNat) ++ " at position "
    ++ toString d.position

/-- The text of the error. -/
def WordError.message : WordError → String
  | .overflow => "integer does not fit in " ++ toString Word.width ++ " bytes"
  | .badDigit defect => defect.message

namespace Word

/-- The bytes without leading zeros, but at least one. -/
def significant (bytes : Bytes) : Bytes :=
  match bytes.dropWhile (· == 0) with
  | [] => [0]
  | rest => rest

/-- Upper-case hex with two digits a byte and no leading zero byte. -/
def toHex (w : Word) : String :=
  String.ofList ((Hex.encode (significant w.toBytes)).map fun b => Char.ofNat b.toNat)

/-- The word that a text in hex stands for. -/
def ofHex? (s : String) : Except WordError Word := do
  let bytes ← (Hex.decode (Hex.digits s)).mapError .badDigit
  ofBytes? bytes

instance : ToString Word := ⟨toHex⟩

/-- All bytes in upper-case hex, as a record of its kind. -/
def dump (w : Word) : String :=
  Text.wrapped "Uint" ("0x" ++ String.ofList ((Hex.encode w.toBytes).map fun b =>
    Char.ofNat b.toNat))

end Word

end BallotProof
