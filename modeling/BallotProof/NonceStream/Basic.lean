import BallotProof.Challenge

/-!
# Nonce streams

A seed and a label determine an endless stream of scalars. An entry is the digest of seed, label
and position, modulo the order of the group, so that any entry can be computed by itself.

* `NonceStream.ofSeed` starts a stream; the seed counts modulo the order
  (`NonceStream.ofSeed_congr`).
* `NonceStream.get` is an entry, `NonceStream.next` takes the entry at the position of the stream.
* `NonceStream.get_lt` : entries are reduced.
-/

namespace BallotProof

/-- A stream of scalars and a position in it. -/
structure NonceStream where
  /-- The seed, reduced. -/
  seed : Scalar
  /-- What the entries are used for. -/
  label : String
  /-- The position of the next entry to be taken. -/
  position : UInt64
deriving DecidableEq

namespace NonceStream

/-- The bytes that all inputs of nonces start with. -/
def domain : Bytes := Bytes.ofString "chaum-pedersen/nonces/v1"

/-- A number in eight bytes. -/
def eightBytes (n : UInt64) : Bytes :=
  Bytes.ofNat 8 n.toNat

/-- The bytes that are hashed: the seed has a fixed width and the label is preceded by its
length. -/
def input (seed : Scalar) (label : String) (index : UInt64) : Bytes :=
  domain ++ seed.toBytes ++ eightBytes (UInt64.ofNat (Bytes.ofString label).length)
    ++ Bytes.ofString label ++ eightBytes index

variable (H : HashFunction) (G : SchnorrGroup)

/-- The stream of a seed and a label, at its start. -/
def ofSeed (seed : Scalar) (label : String) : NonceStream :=
  ⟨G.reduce seed.toWord, label, 0⟩

/-- The entry at a position. -/
def get (s : NonceStream) (index : UInt64) : Scalar :=
  G.scalarOfBytes (H (input s.seed s.label index)).toBytes

/-- The stream without its next `n` entries. -/
def drop (s : NonceStream) (n : Nat) : NonceStream :=
  { s with position := s.position + UInt64.ofNat n }

/-- The next entry and the stream behind it. -/
def next (s : NonceStream) : Scalar × NonceStream :=
  (get H G s s.position, s.drop 1)

/-- The next `n` entries and the stream behind them. -/
def take (s : NonceStream) : Nat → List Scalar × NonceStream
  | 0 => ([], s)
  | n + 1 =>
    let (x, s) := next H G s
    let (xs, s) := take s n
    (x :: xs, s)

/-- The entry behind the next `n`, and the stream behind it. -/
def nth (s : NonceStream) (n : Nat) : Scalar × NonceStream :=
  next H G (s.drop n)

/-- The first `n` entries of the stream, wherever its position is. -/
def draw (s : NonceStream) (n : Nat) : List Scalar :=
  (List.range n).map fun i => get H G s (UInt64.ofNat i)

variable {H G}

theorem get_lt (s : NonceStream) (index : UInt64) : (get H G s index).toNat < G.q.toNat :=
  SchnorrGroup.reduce_lt _

theorem get_eq_toScalar (s : NonceStream) (index : UInt64) :
    get H G s index = G.toScalar (Bytes.toNat (H (input s.seed s.label index)).toBytes) :=
  SchnorrGroup.scalarOfBytes_digest _

/-- Congruent seeds give the same stream. -/
theorem ofSeed_congr {seed seed' : Scalar} (label : String)
    (h : seed.toNat % G.q.toNat = seed'.toNat % G.q.toNat) :
    ofSeed G seed label = ofSeed G seed' label := by
  rw [ofSeed, ofSeed, SchnorrGroup.reduce_eq_toScalar, SchnorrGroup.reduce_eq_toScalar,
    SchnorrGroup.toScalar_eq_iff.2 h]

@[simp] theorem get_drop (s : NonceStream) (n : Nat) : get H G (s.drop n) = get H G s := rfl

@[simp] theorem drop_zero (s : NonceStream) : s.drop 0 = s := by
  simp [drop]

theorem drop_drop (s : NonceStream) (m n : Nat) : (s.drop m).drop n = s.drop (m + n) := by
  simp [drop, UInt64.ofNat_add, UInt64.add_assoc]

/-- Taking entries moves the stream by their number. -/
theorem take_snd (s : NonceStream) (n : Nat) : (take H G s n).2 = s.drop n := by
  induction n generalizing s with
  | zero => simp [take]
  | succ n ih => simp only [take, next, ih, drop_drop, Nat.add_comm]

theorem length_take (s : NonceStream) (n : Nat) : (take H G s n).1.length = n := by
  induction n generalizing s with
  | zero => rfl
  | succ n ih => simp [take, ih]

end NonceStream

end BallotProof
