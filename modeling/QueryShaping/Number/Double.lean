/-!
# Finite doubles

A `Double` is a finite binary floating-point number of 53 significant bits, kept as a sign and
the rank of its magnitude: the magnitudes of such numbers, listed in ascending order, are numbered
from zero. The rank is also the number that the lower 63 bits of the usual encoding spell.

## What this module delivers

- `Double.significand`, `Double.scale`: the exact value of a rank, as `significand * 2 ^ scale`.
- `Double.nearestRank`: the rank of the magnitude nearest to a fraction, a tie going to the even
  rank. A value above the largest finite magnitude gets a rank at or above `rankLimit`.
- `Double.ofDecimal?`: the double nearest to a decimal number, `none` when it is out of range.
-/

set_option autoImplicit false

namespace QueryShaping

/-! ## Ranks -/

/-- The rank of the first magnitude that is too large to be finite. -/
def Double.rankLimit : Nat := 2047 * Nat.pow 2 52

/-- A finite double: a sign and the rank of its magnitude. -/
structure Double where
  negative : Bool
  rank : Nat
  rank_lt : rank < Double.rankLimit
  deriving DecidableEq

namespace Double

/-- The zero of the given sign. -/
def zero (negative : Bool) : Double := ⟨negative, 0, by decide⟩

/-- The integer factor of the value of a rank. Below `2 ^ 52` the rank itself, above it the lower
52 bits with a leading one. -/
def significandOfRank (rank : Nat) : Nat :=
  if rank < Nat.pow 2 52 then rank else rank % Nat.pow 2 52 + Nat.pow 2 52

/-- The exponent of two in the value of a rank. -/
def scaleOfRank (rank : Nat) : Int :=
  if rank < Nat.pow 2 52 then -1074 else (rank / Nat.pow 2 52 : Nat) - 1075

/-- The integer factor of the magnitude. -/
def significand (x : Double) : Nat := significandOfRank x.rank

/-- The exponent of two of the magnitude. -/
def scale (x : Double) : Int := scaleOfRank x.rank

/-- The magnitude as a fraction of natural numbers. -/
def fraction (x : Double) : Nat × Nat :=
  (x.significand * Nat.pow 2 x.scale.toNat, Nat.pow 2 (-x.scale).toNat)

/-! ## Rounding -/

/-- The quotient rounded to the nearest integer, a tie going to the even one. -/
def roundDiv (num den : Nat) : Nat :=
  let q := num / den
  let r := num % den
  if 2 * r < den then q
  else if den < 2 * r then q + 1
  else q + q % 2

/-- The largest `k` with `2 ^ k ≤ num / den`, for positive `num` and `den`. -/
def binaryExponent (num den : Nat) : Int :=
  let k : Int := (num.log2 : Int) - (den.log2 : Int)
  if den * Nat.pow 2 k.toNat ≤ num * Nat.pow 2 (-k).toNat then k else k - 1

/-- The rank of the magnitude nearest to `num / den`, a tie going to the even rank. The grid around
a value has steps of `2 ^ k`; the significand on it is rounded, and a carry out of it moves to the
next grid by itself, because ranks are consecutive. -/
def nearestRank (num den : Nat) : Nat :=
  if num = 0 then 0
  else
    let k : Int := max (binaryExponent num den - 52) (-1074)
    (k + 1074).toNat * Nat.pow 2 52 +
      roundDiv (num * Nat.pow 2 (-k).toNat) (den * Nat.pow 2 k.toNat)

/-- The double nearest to `num / den` with the given sign. -/
def ofFraction? (negative : Bool) (num den : Nat) : Option Double :=
  let rank := nearestRank num den
  if h : rank < rankLimit then some ⟨negative, rank, h⟩ else none

/-! ## Decimal numbers -/

/-- The number of decimal digits of `n`. -/
def decimalLength (n : Nat) : Nat := (Nat.toDigits 10 n).length

/-- The double nearest to `coefficient * 10 ^ exponent`, with the given sign. Decimal numbers at or
above `10 ^ 310` are out of range and those below `10 ^ (-330)` are zero, whatever their digits. -/
def ofDecimal? (negative : Bool) (coefficient : Nat) (exponent : Int) : Option Double :=
  let magnitude : Int := decimalLength coefficient + exponent
  if coefficient = 0 then some (zero negative)
  else if 310 < magnitude then none
  else if magnitude < -330 then some (zero negative)
  else
    ofFraction? negative (coefficient * Nat.pow 10 exponent.toNat) (Nat.pow 10 (-exponent).toNat)

/-! ## Comparison -/

/-- Whether two doubles are the same number: the two zeros are. -/
def same (x y : Double) : Bool :=
  x.rank == y.rank && (x.rank == 0 || x.negative == y.negative)

end Double

end QueryShaping
