import BallotProof.Bytes

/-!
# Words of 4096 bits

All integers of the protocol are held in words of 512 bytes.

* `Word.toBytes` is the fixed big-endian encoding, `Word.ofBytes` keeps the last 512 bytes and
  `Word.ofBytes?` refuses a number that does not fit.
* `Word.ofBytes_toBytes` : the encoding is read back.
* `Word.ofBytes?_eq_ok` : reading succeeds on numbers below `2 ^ 4096`, whatever the number of
  leading zero bytes.
-/

namespace BallotProof

namespace Word

/-- The number of bytes in the fixed encoding. -/
def width : Nat := 512

/-- The number of words, one more than the largest. -/
@[irreducible] def limit : Nat := 256 ^ width

theorem limit_eq : limit = 256 ^ width := by
  unfold limit
  rfl

theorem limit_eq_two_pow : limit = 2 ^ (8 * width) := by
  rw [limit_eq, Nat.pow_mul]

theorem limit_pos : 0 < limit := by
  rw [limit_eq]
  exact Nat.pow_pos (by decide)

end Word

/-- An unsigned integer of 4096 bits. -/
@[ext]
structure Word where
  /-- The integer. -/
  toNat : Nat
  toNat_lt : toNat < Word.limit
deriving DecidableEq

/-- A byte that is no hex digit, with its position among the digits. -/
structure BadDigit where
  /-- The offending byte. -/
  byte : UInt8
  /-- The number of digits before it. -/
  position : Nat
deriving DecidableEq

/-- Why a text or a byte string is not a word. -/
inductive WordError where
  /-- The integer needs more than 4096 bits. -/
  | overflow
  /-- The text holds something else than hex digits. -/
  | badDigit (defect : BadDigit)
deriving DecidableEq

namespace Word

/-- The integer modulo `2 ^ 4096`. -/
def ofNat (n : Nat) : Word :=
  ⟨n % limit, Nat.mod_lt n limit_pos⟩

instance (n : Nat) : OfNat Word n := ⟨ofNat n⟩

/-- Sum modulo `2 ^ 4096`. -/
instance : Add Word := ⟨fun a b => ofNat (a.toNat + b.toNat)⟩

/-- Difference modulo `2 ^ 4096`. -/
instance : Sub Word := ⟨fun a b => ofNat (a.toNat + (limit - b.toNat))⟩

/-- Product modulo `2 ^ 4096`. -/
instance : Mul Word := ⟨fun a b => ofNat (a.toNat * b.toNat)⟩

/-- Remainder of the division. -/
instance : Mod Word := ⟨fun a b => ofNat (a.toNat % b.toNat)⟩

@[simp] theorem toNat_ofNat (n : Nat) : (ofNat n).toNat = n % limit := rfl

theorem toNat_ofNat_of_lt {n : Nat} (h : n < limit) : (ofNat n).toNat = n :=
  Nat.mod_eq_of_lt h

@[simp] theorem ofNat_toNat (w : Word) : ofNat w.toNat = w :=
  Word.ext (Nat.mod_eq_of_lt w.toNat_lt)

theorem toNat_add (a b : Word) : (a + b).toNat = (a.toNat + b.toNat) % limit := rfl

theorem toNat_sub (a b : Word) : (a - b).toNat = (a.toNat + (limit - b.toNat)) % limit := rfl

theorem toNat_mul (a b : Word) : (a * b).toNat = a.toNat * b.toNat % limit := rfl

theorem toNat_mod (a b : Word) : (a % b).toNat = a.toNat % b.toNat :=
  toNat_ofNat_of_lt (Nat.lt_of_le_of_lt (Nat.mod_le ..) a.toNat_lt)

theorem toNat_sub_of_le {a b : Word} (h : b.toNat ≤ a.toNat) :
    (a - b).toNat = a.toNat - b.toNat := by
  have hb := b.toNat_lt
  have ha := a.toNat_lt
  rw [toNat_sub, show a.toNat + (limit - b.toNat) = a.toNat - b.toNat + limit by omega,
    Nat.add_mod_right, Nat.mod_eq_of_lt (by omega)]

/-- Numbers of at most 256 bits are words. -/
theorem lt_limit_of_lt {n : Nat} (h : n < 2 ^ (256 : Nat)) : n < limit := by
  have bits : 256 ≤ 8 * width := by decide
  rw [limit_eq_two_pow]
  exact Nat.lt_of_lt_of_le h (Nat.pow_le_pow_right Nat.two_pos bits)

theorem one_lt_limit : 1 < limit :=
  lt_limit_of_lt (by decide)

theorem toNat_two_pow {bits : Nat} (h : bits < 8 * width) :
    (ofNat (2 ^ bits)).toNat = 2 ^ bits := by
  apply toNat_ofNat_of_lt
  rw [limit_eq_two_pow]
  exact Nat.pow_lt_pow_right Nat.one_lt_two h

theorem toNat_zero : (0 : Word).toNat = 0 :=
  toNat_ofNat_of_lt limit_pos

theorem toNat_one : (1 : Word).toNat = 1 :=
  toNat_ofNat_of_lt one_lt_limit

/-! ### Bytes -/

/-- The big-endian encoding in 512 bytes. -/
def toBytes (w : Word) : Bytes :=
  Bytes.ofNat width w.toNat

/-- The word that the last 512 bytes encode. -/
def ofBytes (bs : Bytes) : Word :=
  ofNat (Bytes.toNat (bs.drop (bs.length - width)))

/-- The word that the bytes encode; all bytes before the last 512 have to be zero. -/
def ofBytes? (bs : Bytes) : Except WordError Word :=
  if (bs.take (bs.length - width)).all (· == 0) then .ok (ofBytes bs) else .error .overflow

@[simp] theorem length_toBytes (w : Word) : w.toBytes.length = width :=
  Bytes.length_ofNat ..

@[simp] theorem toNat_toBytes (w : Word) : Bytes.toNat w.toBytes = w.toNat := by
  rw [toBytes, Bytes.toNat_ofNat, ← limit_eq]
  exact Nat.mod_eq_of_lt w.toNat_lt

theorem toBytes_injective {a b : Word} (h : a.toBytes = b.toBytes) : a = b :=
  Word.ext (by rw [← toNat_toBytes a, ← toNat_toBytes b, h])

/-- Only the number modulo `2 ^ 4096` counts. -/
theorem toNat_ofBytes (bs : Bytes) : (ofBytes bs).toNat = Bytes.toNat bs % limit := by
  rw [ofBytes, toNat_ofNat]
  by_cases h : bs.length ≤ width
  · rw [Nat.sub_eq_zero_of_le h, List.drop_zero]
  · have hlen : (bs.drop (bs.length - width)).length = width := by
      rw [List.length_drop]; omega
    conv =>
      rhs
      rw [← List.take_append_drop (bs.length - width) bs, Bytes.toNat_append, hlen, ← limit_eq]
    exact (Nat.mul_add_mod ..).symm

@[simp] theorem ofBytes_toBytes (w : Word) : ofBytes w.toBytes = w :=
  Word.ext (by rw [toNat_ofBytes, toNat_toBytes, Nat.mod_eq_of_lt w.toNat_lt])

/-- The value of a byte string splits into the bytes that have to be zero and the encoded word. -/
theorem toNat_eq_of_length (bs : Bytes) :
    Bytes.toNat bs = limit * Bytes.toNat (bs.take (bs.length - width)) + (ofBytes bs).toNat := by
  rw [toNat_ofBytes]
  by_cases h : bs.length ≤ width
  · rw [Nat.sub_eq_zero_of_le h, List.take_zero, Bytes.toNat_nil, Nat.mul_zero, Nat.zero_add]
    refine (Nat.mod_eq_of_lt (Nat.lt_of_lt_of_le (Bytes.toNat_lt bs) ?_)).symm
    rw [limit_eq]
    exact Nat.pow_le_pow_right (by decide) h
  · have hlen : (bs.drop (bs.length - width)).length = width := by
      rw [List.length_drop]; omega
    have hsplit := Bytes.toNat_append (bs.take (bs.length - width)) (bs.drop (bs.length - width))
    rw [List.take_append_drop, hlen] at hsplit
    have hlt : Bytes.toNat (bs.drop (bs.length - width)) < limit := by
      have := Bytes.toNat_lt (bs.drop (bs.length - width))
      rwa [hlen, ← limit_eq] at this
    rw [hsplit, ← limit_eq, Nat.mul_add_mod, Nat.mod_eq_of_lt hlt]

theorem ofBytes?_eq_ok {bs : Bytes} (h : Bytes.toNat bs < limit) :
    ofBytes? bs = .ok (ofNat (Bytes.toNat bs)) := by
  have hsplit := toNat_eq_of_length bs
  have hzero : Bytes.toNat (bs.take (bs.length - width)) = 0 := by
    cases hn : Bytes.toNat (bs.take (bs.length - width)) with
    | zero => rfl
    | succ n =>
      rw [hn, Nat.mul_succ] at hsplit
      omega
  have hall : (bs.take (bs.length - width)).all (· == 0) = true := by
    rw [← Bytes.ofNat_toNat (bs.take (bs.length - width)), hzero]
    generalize (bs.take (bs.length - width)).length = w
    rw [List.all_eq_true]
    intro b hb
    rw [Bytes.ofNat, List.mem_reverse] at hb
    induction w with
    | zero => simp [Bytes.littleEndian] at hb
    | succ w ih =>
      rw [Bytes.littleEndian, List.mem_cons] at hb
      rcases hb with rfl | hb
      · rfl
      · exact ih (by simpa using hb)
  rw [ofBytes?, if_pos hall]
  exact congrArg Except.ok (Word.ext (toNat_ofBytes bs))

theorem ofBytes?_eq_overflow {bs : Bytes} (h : limit ≤ Bytes.toNat bs) :
    ofBytes? bs = .error .overflow := by
  rw [ofBytes?, if_neg]
  intro hall
  have hsplit := toNat_eq_of_length bs
  rw [Bytes.toNat_eq_zero_of_all hall, Nat.mul_zero, Nat.zero_add] at hsplit
  have := (ofBytes bs).toNat_lt
  omega

end Word

end BallotProof
