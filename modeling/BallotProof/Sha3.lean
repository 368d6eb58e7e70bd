import BallotProof.Digest

/-!
# SHA3-256

The sponge over the permutation Keccak-f[1600] with a rate of 136 bytes and digests of 32 bytes.

* `Sha3.permute` is the permutation, 24 rounds on a state of five by five lanes of 64 bits.
* `Sha3.pad` fills a message up to whole blocks (`Sha3.length_pad_mod`).
* `Sha3.hash` is the hash function.
-/

namespace BallotProof

namespace Sha3

/-! ### The permutation -/

/-- Five by five lanes; the lane at column `x` and row `y` has the index `x + 5 * y`. -/
abbrev State := Vector UInt64 25

/-- The lane at column `x` and row `y`, both modulo five. -/
def lane (s : State) (x y : Nat) : UInt64 :=
  s.get ⟨x % 5 + 5 * (y % 5), by omega⟩

/-- The state whose lanes are given by column and row. -/
def build (f : Nat → Nat → UInt64) : State :=
  Vector.ofFn fun i => f (i.val % 5) (i.val / 5)

/-- The lane turned left by `n` bits, for `n` below 64. -/
def rotate (w : UInt64) (n : Nat) : UInt64 :=
  if n = 0 then w else (w <<< UInt64.ofNat n) ||| (w >>> UInt64.ofNat (64 - n))

/-- By how many bits the lanes are turned. -/
def offsets : Vector Nat 25 := #v[
  0, 1, 62, 28, 27,
  36, 44, 6, 55, 20,
  3, 10, 43, 25, 39,
  41, 45, 15, 21, 8,
  18, 2, 61, 56, 14]

/-- The constants of the rounds. -/
def roundConstants : List UInt64 :=
  [0x0000000000000001, 0x0000000000008082, 0x800000000000808a, 0x8000000080008000,
    0x000000000000808b, 0x0000000080000001, 0x8000000080008081, 0x8000000000008009,
    0x000000000000008a, 0x0000000000000088, 0x0000000080008009, 0x000000008000000a,
    0x000000008000808b, 0x800000000000008b, 0x8000000000008089, 0x8000000000008003,
    0x8000000000008002, 0x8000000000000080, 0x000000000000800a, 0x800000008000000a,
    0x8000000080008081, 0x8000000000008080, 0x0000000080000001, 0x8000000080008008]

/-- The parities of the columns. -/
def parities (s : State) : Vector UInt64 5 :=
  Vector.ofFn fun x =>
    lane s x 0 ^^^ lane s x 1 ^^^ lane s x 2 ^^^ lane s x 3 ^^^ lane s x 4

/-- Adds the parities of the two neighbouring columns to every lane. -/
def theta (s : State) : State :=
  let c := parities s
  let d : Vector UInt64 5 := Vector.ofFn fun x =>
    c.get ⟨(x.val + 4) % 5, by omega⟩ ^^^ rotate (c.get ⟨(x.val + 1) % 5, by omega⟩) 1
  build fun x y => lane s x y ^^^ d.get ⟨x % 5, by omega⟩

/-- Turns the lanes and moves them: the lane at `(x, y)` comes from column `x + 3 * y` of
row `x`. -/
def rhoPi (s : State) : State :=
  build fun x y =>
    let source := (x + 3 * y) % 5
    rotate (lane s source x) (offsets.get ⟨source + 5 * (x % 5), by omega⟩)

/-- Mixes every lane with the next two of its row. -/
def chi (s : State) : State :=
  build fun x y => lane s x y ^^^ (~~~ lane s (x + 1) y &&& lane s (x + 2) y)

/-- Adds a constant to the first lane. -/
def iota (constant : UInt64) (s : State) : State :=
  s.set 0 (s[0] ^^^ constant)

/-- One round. -/
def round (s : State) (constant : UInt64) : State :=
  iota constant (chi (rhoPi (theta s)))

/-- The permutation. -/
def permute (s : State) : State :=
  roundConstants.foldl round s

/-! ### The sponge -/

/-- The number of bytes in a block. -/
def rate : Nat := 136

/-- The bytes that fill a message of `n` bytes up to whole blocks. -/
def padding (n : Nat) : Bytes :=
  let missing := rate - n % rate
  -- the first and the last byte of the padding fall together when only one is missing
  if missing = 1 then [0x86] else 0x06 :: List.replicate (missing - 2) 0 ++ [0x80]

/-- The message filled up to whole blocks. -/
def pad (message : Bytes) : Bytes :=
  message ++ padding message.length

/-- The lane that eight bytes form, the lowest byte first. -/
def laneOfBytes (bs : Bytes) : UInt64 :=
  bs.foldr (fun b w => w <<< 8 ||| b.toUInt64) 0

/-- Adds a block to the state and permutes it. -/
def absorbBlock (s : State) (block : Bytes) : State :=
  permute <| Vector.ofFn fun i => s[i] ^^^ laneOfBytes ((block.drop (8 * i)).take 8)

/-- Absorbs `count` blocks of the message. -/
def absorb : Nat → State → Bytes → State
  | 0, s, _ => s
  | count + 1, s, message =>
    absorb count (absorbBlock s (message.take rate)) (message.drop rate)

/-- The first 32 bytes of the state. -/
def digest (s : State) : Digest :=
  Vector.ofFn fun i =>
    (s.get ⟨i.val / 8, by omega⟩ >>> UInt64.ofNat (8 * (i.val % 8))).toUInt8

/-- The hash function. -/
def hash : HashFunction := fun message =>
  let padded := pad message
  digest (absorb (padded.length / rate) (Vector.replicate 25 0) padded)

theorem length_padding (n : Nat) : (padding n).length = rate - n % rate := by
  have : n % rate < rate := Nat.mod_lt _ (by decide)
  unfold padding
  simp only
  split
  · simp_all
  · simp
    omega

/-- A padded message consists of whole blocks. -/
theorem length_pad_mod (message : Bytes) : (pad message).length % rate = 0 := by
  have := Nat.mod_lt message.length (show 0 < rate by decide)
  have hdiv := Nat.div_add_mod message.length rate
  rw [pad, List.length_append, length_padding,
    show message.length + (rate - message.length % rate)
      = rate * (message.length / rate) + rate by omega]
  simp

end Sha3

end BallotProof
