import BallotProof.Digest
import BallotProof.SchnorrGroup.Arithmetic

/-!
# Challenges

A challenge is the digest of a list of elements and scalars, modulo the order of the group. The
hashed bytes start with a domain of their own, and every item starts with a byte for its kind and
has a fixed width, so that different lists give different bytes.

* `Challenge.input` are the hashed bytes.
* `SchnorrGroup.challenge` is the challenge.
* `Challenge.length_encode` : every item takes 513 bytes.
* `SchnorrGroup.challenge_eq_toScalar` : the challenge is the number that the digest encodes, modulo
  the order of the group.
-/

namespace BallotProof

/-- Something that goes into a challenge. -/
inductive ChallengeItem where
  /-- An element of the group. -/
  | element (x : Element)
  /-- A scalar. -/
  | scalar (x : Scalar)
deriving DecidableEq

namespace Challenge

/-- The bytes that all inputs of challenges start with. -/
def domain : Bytes := Bytes.ofString "chaum-pedersen/challenge/v1"

/-- The byte for the kind, then the word in 512 bytes. -/
def encode : ChallengeItem → Bytes
  | .element x => 0x01 :: x.toBytes
  | .scalar x => 0x02 :: x.toBytes

/-- The bytes that are hashed. -/
def input (items : List ChallengeItem) : Bytes :=
  domain ++ items.flatMap encode

@[simp] theorem length_encode (item : ChallengeItem) : (encode item).length = 513 := by
  cases item <;> simp [encode, Word.width]

end Challenge

/-- The digest of the items modulo the order of the group. -/
def SchnorrGroup.challenge (G : SchnorrGroup) (H : HashFunction) (items : List ChallengeItem) :
    Scalar :=
  G.scalarOfBytes (H (Challenge.input items)).toBytes

theorem SchnorrGroup.challenge_lt {G : SchnorrGroup} {H : HashFunction}
    {items : List ChallengeItem} : (G.challenge H items).toNat < G.q.toNat :=
  reduce_lt _

/-- A digest always fits in a word, so that only its number modulo the order counts. -/
theorem SchnorrGroup.scalarOfBytes_digest {G : SchnorrGroup} (d : Digest) :
    G.scalarOfBytes d.toBytes = G.toScalar (Bytes.toNat d.toBytes) := by
  have hlt := Bytes.toNat_lt d.toBytes
  rw [Digest.length_toBytes, show (256 : Nat) ^ (32 : Nat) = 2 ^ (256 : Nat) by decide] at hlt
  apply Scalar.ext
  rw [toNat_scalarOfBytes, Nat.mod_eq_of_lt (Word.lt_limit_of_lt hlt), toNat_toScalar]

theorem SchnorrGroup.challenge_eq_toScalar {G : SchnorrGroup} {H : HashFunction}
    {items : List ChallengeItem} :
    G.challenge H items = G.toScalar (Bytes.toNat (H (Challenge.input items)).toBytes) :=
  scalarOfBytes_digest _

end BallotProof
