import BallotProof.Element
import BallotProof.Modular

/-!
# Schnorr groups

A group is given by an odd modulus `p`, an odd order `q` that divides `p - 1`, and a generator `g`
with `g ^ q = 1` modulo `p`. That `p` and `q` are prime is not required.

* `SchnorrGroup.ofWords` checks the three words and reports the first condition that fails.
* `SchnorrGroup.ofWords_self` : a group passes the check again and is given back.
-/

namespace BallotProof

/-- Why numbers do not describe a usable group. -/
inductive GroupError where
  /-- A modulus is even. -/
  | evenModulus
  /-- A modulus is zero or one. -/
  | modulusTooSmall
  /-- The order is not below the modulus. -/
  | subgroupTooLarge
  /-- The order does not divide the modulus minus one. -/
  | subgroupOrderMismatch
  /-- The generator is trivial, not reduced, or has another order. -/
  | invalidGenerator
  /-- No group with an order of `q` bits and a modulus of `p` bits is searched for. -/
  | unusableBitLengths (q p : UInt64)
  /-- A text or a byte string is not a word. -/
  | word (cause : WordError)
deriving DecidableEq

/-- The text of the error. -/
def GroupError.message : GroupError → String
  | .evenModulus => "modulus must be odd"
  | .modulusTooSmall => "modulus must be greater than one"
  | .subgroupTooLarge => "subgroup order Q must be smaller than P"
  | .subgroupOrderMismatch => "subgroup order Q does not divide P - 1"
  | .invalidGenerator => "generator is not an element of order Q"
  | .unusableBitLengths q p =>
    "requested bit lengths q=" ++ toString q ++ ", p=" ++ toString p ++ " are not usable"
  | .word cause => cause.message

/-- A subgroup of order dividing `q` of the units modulo `p`, with a generator `g`. -/
@[ext]
structure SchnorrGroup where
  /-- The modulus of the elements. -/
  p : Word
  /-- The modulus of the scalars. -/
  q : Word
  /-- The generator. -/
  g : Word
  p_odd : p.toNat % 2 = 1
  q_odd : q.toNat % 2 = 1
  one_lt_q : 1 < q.toNat
  q_lt_p : q.toNat < p.toNat
  q_dvd : (p.toNat - 1) % q.toNat = 0
  one_lt_g : 1 < g.toNat
  g_lt_p : g.toNat < p.toNat
  g_pow_q : g.toNat ^ q.toNat % p.toNat = 1
deriving DecidableEq

namespace SchnorrGroup

/-- The group with the given modulus, order and generator. The modulus is checked first, then the
order by itself and against the modulus, then the generator. -/
def ofWords (p q g : Word) : Except GroupError SchnorrGroup :=
  if _ : p.toNat ≤ 1 then .error .modulusTooSmall
  else if _ : p.toNat % 2 = 0 then .error .evenModulus
  else if _ : q.toNat ≤ 1 then .error .modulusTooSmall
  else if _ : q.toNat % 2 = 0 then .error .evenModulus
  else if _ : p.toNat ≤ q.toNat then .error .subgroupTooLarge
  else if hdvd : (p.toNat - 1) % q.toNat ≠ 0 then .error .subgroupOrderMismatch
  else if _ : g.toNat ≤ 1 then .error .invalidGenerator
  else if _ : p.toNat ≤ g.toNat then .error .invalidGenerator
  else if hpow : Modular.pow p.toNat (Modular.bitLength q.toNat) g.toNat q.toNat ≠ 1 then
    .error .invalidGenerator
  else .ok
    { p, q, g
      p_odd := by omega
      q_odd := by omega
      one_lt_q := by omega
      q_lt_p := by omega
      q_dvd := by simpa using hdvd
      one_lt_g := by omega
      g_lt_p := by omega
      g_pow_q := by
        rwa [ne_eq, Decidable.not_not, Modular.pow_of_lt (Modular.lt_two_pow_bitLength _)]
          at hpow }

/-- The group given by three texts in hex, read in this order and then checked. -/
def ofHex (p q g : String) : Except GroupError SchnorrGroup := do
  let p ← (Word.ofHex? p).mapError .word
  let q ← (Word.ofHex? q).mapError .word
  let g ← (Word.ofHex? g).mapError .word
  ofWords p q g

variable (G : SchnorrGroup)

/-- The generator as an element. -/
def generator : Element := ⟨G.g⟩

/-- The number of bits of the order. -/
def qBits : Nat := Modular.bitLength G.q.toNat

/-- The three numbers by name. -/
def display : String :=
  Text.record "GroupParams"
    [("p", Text.quote G.p.toHex), ("q", Text.quote G.q.toHex), ("g", Text.quote G.g.toHex)]

variable {G}

theorem p_pos : 0 < G.p.toNat := by
  have := G.q_lt_p
  omega

theorem q_pos : 0 < G.q.toNat := by
  have := G.one_lt_q
  omega

theorem one_lt_p : 1 < G.p.toNat :=
  Nat.lt_trans G.one_lt_q G.q_lt_p

theorem q_lt_two_pow : G.q.toNat < 2 ^ G.qBits :=
  Modular.lt_two_pow_bitLength _

/-- A group passes the check again and is given back. -/
theorem ofWords_self : ofWords G.p G.q G.g = .ok G := by
  have h1 := G.p_odd
  have h2 := G.q_odd
  have h3 := G.one_lt_q
  have h4 := G.q_lt_p
  have h5 := G.q_dvd
  have h6 := G.one_lt_g
  have h7 := G.g_lt_p
  have h8 := G.g_pow_q
  unfold ofWords
  rw [dif_neg (by omega), dif_neg (by omega), dif_neg (by omega), dif_neg (by omega),
    dif_neg (by omega), dif_neg (by simpa using h5), dif_neg (by omega), dif_neg (by omega),
    dif_neg (by rw [Modular.pow_of_lt (Modular.lt_two_pow_bitLength _)]; simpa using h8)]

end SchnorrGroup

end BallotProof
