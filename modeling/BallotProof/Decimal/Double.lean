/-!
# Double precision numbers

A finite double is a sign, a mantissa and a power of two. All arithmetic on it is exact arithmetic
on natural numbers, followed by one rounding to the nearest double, a tie going to the even
mantissa.

* `Magnitude.ofRatio` rounds a quotient of naturals.
* `Double.ofDecimal?` reads a decimal: the leading digits that fit 64 bits are rounded once, and
  the result is scaled by a power of ten with one more rounding.
* `roundHalfEven_nearest` : rounding moves by at most one half.
-/

namespace BallotProof

/-- The quotient `num / den` rounded to the nearest integer, a tie to the even one. -/
def roundHalfEven (num den : Nat) : Nat :=
  let low := num / den
  let rest := num % den
  if 2 * rest < den then low
  else if 2 * rest = den ∧ low % 2 = 0 then low
  else low + 1

/-- Rounding moves a quotient by at most one half. -/
theorem roundHalfEven_nearest (num den : Nat) (h : 0 < den) :
    2 * num ≤ 2 * den * roundHalfEven num den + den ∧
      2 * den * roundHalfEven num den ≤ 2 * num + den := by
  have hdiv := Nat.div_add_mod num den
  have hlt := Nat.mod_lt num h
  simp only [roundHalfEven]
  split
  · rw [Nat.mul_assoc]
    omega
  · split
    · rw [Nat.mul_assoc]
      omega
    · rw [Nat.mul_assoc, Nat.mul_add, Nat.mul_one]
      omega

/-- The absolute value `mantissa * 2 ^ exponent` of a finite double. -/
structure Magnitude where
  /-- At most 53 bits. -/
  mantissa : Nat
  /-- The power of two of the last bit. -/
  exponent : Int
deriving DecidableEq

namespace Magnitude

/-- The power of two of the last bit of the smallest doubles. -/
def minExponent : Int := -1074

/-- The power of two of the last bit of the largest doubles. -/
def maxExponent : Int := 971

/-- Zero. -/
def zero : Magnitude := ⟨0, minExponent⟩

/-- The numerator and the denominator of the value. -/
def ratio (x : Magnitude) : Nat × Nat :=
  (x.mantissa * 2 ^ x.exponent.toNat, 2 ^ (-x.exponent).toNat)

/-- The largest `e` with `2 ^ e ≤ num / den`. -/
def log2 (num den : Nat) : Int :=
  let e : Int := num.log2 - den.log2
  if den * 2 ^ e.toNat ≤ num * 2 ^ (-e).toNat then e else e - 1

/-- The double nearest to `num / den`; `none` beyond the largest. -/
def ofRatio (num den : Nat) : Option Magnitude :=
  if num = 0 then some zero
  else
    let e := max (log2 num den - 52) minExponent
    let m := roundHalfEven (num * 2 ^ (-e).toNat) (den * 2 ^ e.toNat)
    -- rounding may carry into one more bit
    let x : Magnitude := if m = 2 ^ (53 : Nat) then ⟨2 ^ (52 : Nat), e + 1⟩ else ⟨m, e⟩
    if maxExponent < x.exponent then none else some x

/-- The largest power of ten that is a double. -/
def maxPower : Nat := 308

/-- The value times `10 ^ k`; `none` beyond the largest double. -/
def scaleUp (x : Magnitude) (k : Nat) : Option Magnitude := do
  if x.mantissa = 0 then return x
  if maxPower < k then none
  let power ← ofRatio (10 ^ k) 1
  ofRatio (x.ratio.1 * power.ratio.1) (x.ratio.2 * power.ratio.2)

/-- The value divided by `10 ^ k` for a power of ten that is a double. -/
def divPower (x : Magnitude) (k : Nat) : Magnitude :=
  let power := (ofRatio (10 ^ k) 1).getD zero
  (ofRatio (x.ratio.1 * power.ratio.2) (x.ratio.2 * power.ratio.1)).getD zero

/-- The value divided by `10 ^ k`, in steps of the largest power of ten that is a double. -/
def scaleDown (x : Magnitude) (k : Nat) : Magnitude :=
  if k ≤ maxPower then x.divPower k
  else if x.mantissa = 0 then x
  else scaleDown (x.divPower maxPower) (k - maxPower)
termination_by k
decreasing_by simp only [maxPower] at *; omega

end Magnitude

/-- A finite double; zero has a sign too. -/
structure Double where
  /-- The sign is minus. -/
  negative : Bool
  /-- The absolute value. -/
  magnitude : Magnitude
deriving DecidableEq

namespace Double

/-- Appends decimal digits to a significand while it stays below `2 ^ 64`; the second component
counts the digits left over. -/
def gather (significand : Nat) : List Nat → Nat × Nat
  | [] => (significand, 0)
  | d :: ds =>
    if 10 * significand + d < 2 ^ 64 then gather (10 * significand + d) ds
    else (significand, ds.length + 1)

/-- The double `significand * 10 ^ exponent`; `none` beyond the largest double. -/
def ofParts? (negative : Bool) (significand : Nat) (exponent : Int) : Option Double := do
  let x ← Magnitude.ofRatio significand 1
  let scaled ← if 0 ≤ exponent then x.scaleUp exponent.toNat
    else some (x.scaleDown (-exponent).toNat)
  return ⟨negative, scaled⟩

/-- The double that a decimal with the digits `whole.fraction`, times a power of ten, stands
for. -/
def ofDecimal? (negative : Bool) (whole fraction : List Nat) (exponent : Int) : Option Double :=
  let (first, dropped) := gather 0 whole
  let (significand, ignored) := gather first fraction
  ofParts? negative significand (exponent + dropped - (fraction.length - ignored))

end Double

end BallotProof
