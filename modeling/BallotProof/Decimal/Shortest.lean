import BallotProof.Decimal.Double

/-!
# Shortest decimal text of a double

A double is written with the fewest digits that single it out among the doubles; of these the
nearest, and of two equally near ones the one with an even last digit.

* `Magnitude.within` decides whether a decimal is read as the given double.
* `Magnitude.shortest` finds the digits.
* `Double.text` lays them out: positional with a point for decimal exponents from -4 to 16, with an
  exponent otherwise.
-/

namespace BallotProof

namespace Magnitude

/-- The factors that bring `c * 10 ^ u` and quarters of the last bit of `x` to one scale. -/
def scales (x : Magnitude) (u : Int) : Nat × Nat :=
  (10 ^ u.toNat * 2 ^ (2 - x.exponent).toNat, 10 ^ (-u).toNat * 2 ^ (x.exponent - 2).toNat)

/-- The lower neighbour is only half as far away as the upper one. -/
def atBinade (x : Magnitude) : Bool :=
  x.mantissa = 2 ^ (52 : Nat) && minExponent < x.exponent

/-- The decimal `c * 10 ^ u` is nearer to `x` than to any other double; a tie counts if the
mantissa is even. -/
def within (x : Magnitude) (c : Nat) (u : Int) : Bool :=
  let (decimal, quarter) := x.scales u
  -- both ends of the interval lie half way to a neighbour, in quarters of the last bit
  let low := (4 * x.mantissa - (if x.atBinade then 1 else 2)) * quarter
  let high := (4 * x.mantissa + 2) * quarter
  let point := c * decimal
  if x.mantissa % 2 = 0 then low ≤ point && point ≤ high else low < point && point < high

/-- The decimals with last place `10 ^ u` next to `x`, the nearer one first; of two equally near
ones the even one is first. -/
def neighbours (x : Magnitude) (u : Int) : List Nat :=
  let (decimal, quarter) := x.scales u
  let value := 4 * x.mantissa * quarter
  let below := value / decimal
  let rest := value % decimal
  if 2 * rest < decimal || (2 * rest = decimal && below % 2 = 0) then [below, below + 1]
  else [below + 1, below]

/-- The least `k` with `x < 10 ^ k`, for the values of doubles. -/
def decimalExponent (x : Magnitude) : Int :=
  let (num, den) := x.ratio
  let exponents := (List.range 640).map fun i : Nat => (i : Int) - 325
  (exponents.find? fun k => num * 10 ^ (-k).toNat < den * 10 ^ k.toNat).getD 0

/-- The digits `c` and the place `u` of the shortest decimal `c * 10 ^ u` that is read as `x`. -/
def shortest (x : Magnitude) : Nat × Int :=
  let top := x.decimalExponent
  let places := (List.range 17).map fun n : Nat => top - (n + 1 : Nat)
  let hits := places.flatMap fun u =>
    ((x.neighbours u).filter fun c => x.within c u).map fun c => (c, u)
  hits.head?.getD (0, 0)

end Magnitude

/-- Removes zeros at the end of the digits `c` of `c * 10 ^ u`. -/
def dropZeros (c : Nat) (u : Int) : Nat × Int :=
  if h : c ≠ 0 ∧ c % 10 = 0 then dropZeros (c / 10) (u + 1) else (c, u)
termination_by c
decreasing_by omega

/-- When a decimal is written positionally, and how it is written otherwise. -/
structure DecimalLayout where
  /-- The least exponent `k` of a positional decimal below `10 ^ k`. -/
  least : Int
  /-- The greatest such exponent. -/
  greatest : Int
  /-- What stands between the letter and an exponent that is not negative. -/
  plus : List Char

namespace Double

/-- Positional notation covers decimals below `10 ^ 16` with at most four zeros after the point; an
exponent always has a sign. -/
def layout : DecimalLayout := ⟨-4, 16, ['+']⟩

/-- An exponent with its letter and its sign. -/
def exponentText (e : Int) : List Char :=
  'e' :: (if e < 0 then [] else layout.plus) ++ (toString e).toList

/-- The decimal `c * 10 ^ u`, for a `c` that does not end in zero, laid out as text. -/
def layOut (c : Nat) (u : Int) : String :=
  let digits := (toString c).toList
  let zeros (n : Int) := List.replicate n.toNat '0'
  let top : Int := digits.length + u
  String.ofList <|
    if 0 ≤ u && top ≤ layout.greatest then digits ++ zeros u ++ ['.', '0']
    else if 0 < top && top ≤ layout.greatest then
      digits.take top.toNat ++ ['.'] ++ digits.drop top.toNat
    else if layout.least ≤ top && top ≤ 0 then ['0', '.'] ++ zeros (-top) ++ digits
    else
      let point := if digits.length = 1 then [] else ['.']
      digits.take 1 ++ point ++ digits.drop 1 ++ exponentText (top - 1)

/-- The text of a double. -/
def text (x : Double) : String :=
  let sign := if x.negative then "-" else ""
  if x.magnitude.mantissa = 0 then sign ++ "0.0"
  else
    let (c, u) := x.magnitude.shortest
    let (c, u) := dropZeros c u
    sign ++ layOut c u

end Double

end BallotProof
