/-!
# Big-endian byte strings

A byte string is a list of bytes, most significant first when it is read as a number.

* `Bytes.toNat` reads a byte string as a number in base 256.
* `Bytes.ofNat` writes the last digits of a number in base 256 with a fixed width.
* `Bytes.toNat_ofNat` : writing `w` bytes keeps the number modulo `256 ^ w`.
* `Bytes.ofNat_toNat` : a byte string is written back from its number and its length.
-/

namespace BallotProof

-- powers of numbers are the same terms, whether or not the algebra library is imported
attribute [scoped instance (high)] instPowNat

/-- A byte string. -/
abbrev Bytes := List UInt8

namespace Bytes

/-- The number whose digits in base 256, most significant first, are the bytes. -/
def toNat (bs : Bytes) : Nat :=
  bs.foldl (fun n b => 256 * n + b.toNat) 0

/-- The lowest `w` digits of `n` in base 256, least significant first. -/
def littleEndian : Nat → Nat → Bytes
  | 0, _ => []
  | w + 1, n => UInt8.ofNat n :: littleEndian w (n / 256)

/-- The lowest `w` digits of `n` in base 256, most significant first. -/
def ofNat (w n : Nat) : Bytes :=
  (littleEndian w n).reverse

/-- The bytes of a text in UTF-8. -/
def ofString (s : String) : Bytes :=
  s.toUTF8.data.toList

@[simp] theorem toNat_nil : toNat [] = 0 := rfl

theorem foldl_eq (bs : Bytes) (n : Nat) :
    bs.foldl (fun n b => 256 * n + b.toNat) n = 256 ^ bs.length * n + toNat bs := by
  induction bs generalizing n with
  | nil => simp
  | cons b bs ih =>
    simp only [toNat, List.foldl_cons, List.length_cons]
    rw [ih, ih (256 * 0 + b.toNat), Nat.pow_succ, Nat.mul_add, Nat.mul_zero, Nat.zero_add,
      ← Nat.mul_assoc, Nat.add_assoc]

theorem toNat_append (bs cs : Bytes) :
    toNat (bs ++ cs) = 256 ^ cs.length * toNat bs + toNat cs := by
  rw [toNat, List.foldl_append]
  exact foldl_eq cs _

@[simp] theorem toNat_cons (b : UInt8) (bs : Bytes) :
    toNat (b :: bs) = 256 ^ bs.length * b.toNat + toNat bs := by
  simpa [toNat] using foldl_eq bs b.toNat

theorem toNat_lt (bs : Bytes) : toNat bs < 256 ^ bs.length := by
  induction bs with
  | nil => simp
  | cons b bs ih =>
    have hb : b.toNat + 1 ≤ 256 := b.toNat_lt
    have := Nat.mul_le_mul_left (256 ^ bs.length) hb
    rw [toNat_cons, List.length_cons, Nat.pow_succ]
    rw [Nat.mul_add] at this
    omega

/-- Zero bytes in front change nothing. -/
theorem toNat_zeros_append (n : Nat) (bs : Bytes) :
    toNat (List.replicate n 0 ++ bs) = toNat bs := by
  induction n with
  | zero => simp
  | succ n ih => simp [List.replicate_succ, ih]

theorem toNat_eq_zero_of_all {bs : Bytes} (h : bs.all (· == 0) = true) : toNat bs = 0 := by
  induction bs with
  | nil => rfl
  | cons b bs ih =>
    simp only [List.all_cons, Bool.and_eq_true, beq_iff_eq] at h
    simp [h.1, ih h.2]

/-! ### Writing -/

@[simp] theorem length_littleEndian (w n : Nat) : (littleEndian w n).length = w := by
  induction w generalizing n with
  | zero => rfl
  | succ w ih => simp [littleEndian, ih]

@[simp] theorem length_ofNat (w n : Nat) : (ofNat w n).length = w := by
  simp [ofNat]

theorem ofNat_succ (w n : Nat) : ofNat (w + 1) n = ofNat w (n / 256) ++ [UInt8.ofNat n] := by
  simp [ofNat, littleEndian]

theorem toNat_ofNat (w n : Nat) : toNat (ofNat w n) = n % 256 ^ w := by
  induction w generalizing n with
  | zero => simp [ofNat, littleEndian, Nat.mod_one]
  | succ w ih =>
    have hb : (UInt8.ofNat n).toNat = n % 256 := UInt8.toNat_ofNat' ..
    rw [ofNat_succ, toNat_append, ih, toNat_cons, toNat_nil, hb]
    simp only [List.length_cons, List.length_nil, Nat.pow_zero, Nat.one_mul, Nat.add_zero,
      Nat.zero_add, Nat.pow_one]
    rw [Nat.pow_succ, Nat.mul_comm (256 ^ w) 256, Nat.mod_mul, Nat.add_comm]

theorem ofNat_toNat (bs : Bytes) : ofNat bs.length (toNat bs) = bs := by
  suffices h : ∀ cs : Bytes, ofNat cs.reverse.length (toNat cs.reverse) = cs.reverse by
    simpa using h bs.reverse
  intro cs
  induction cs with
  | nil => rfl
  | cons b cs ih =>
    have hb : b.toNat < 256 := b.toNat_lt
    have hdiv : toNat (cs.reverse ++ [b]) / 256 = toNat cs.reverse := by
      rw [toNat_append]
      simp only [toNat_cons, toNat_nil, List.length_cons, List.length_nil, Nat.pow_zero,
        Nat.one_mul, Nat.add_zero, Nat.zero_add, Nat.pow_one]
      omega
    have hmod : UInt8.ofNat (toNat (cs.reverse ++ [b])) = b := by
      apply UInt8.toNat_inj.1
      rw [UInt8.toNat_ofNat', toNat_append]
      simp only [toNat_cons, toNat_nil, List.length_cons, List.length_nil, Nat.pow_zero,
        Nat.one_mul, Nat.add_zero, Nat.zero_add, Nat.pow_one]
      omega
    rw [List.reverse_cons, List.length_append, List.length_cons, List.length_nil, Nat.zero_add,
      ofNat_succ, hdiv, hmod, ih]

end Bytes

end BallotProof
