import BallotProof.Bytes

/-!
# Hash functions

Challenges and nonces are derived with a hash function from byte strings to digests of 32 bytes.
It is a parameter of everything built on it; `Sha3.hash` is the one in use.
-/

namespace BallotProof

/-- The output of a hash function. -/
abbrev Digest := Vector UInt8 32

/-- A function from byte strings to digests. -/
abbrev HashFunction := Bytes → Digest

/-- The digest as a byte string. -/
def Digest.toBytes (d : Digest) : Bytes := d.toList

@[simp] theorem Digest.length_toBytes (d : Digest) : d.toBytes.length = 32 := by
  simp [Digest.toBytes]

end BallotProof
