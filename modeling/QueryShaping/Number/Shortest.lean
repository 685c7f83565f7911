import QueryShaping.Number.Numeral

/-!
# The shortest numeral of a double

A double is written with the fewest digits that it is the nearest double to; among numerals with
that many digits the one nearest to the double is taken, and of two that are equally near the one
whose last digit is even.

## What this module delivers

- `Double.candidates`: the two neighbours of a double on the grid of decimal numbers with a given
  number of digits, the nearer one first.
- `Double.numeral`: the first candidate that the double is nearest to. Where there is none, the exact
  value.
-/

set_option autoImplicit false

namespace QueryShaping

namespace Double

/-- The number of places before the point: the least `p` with `num / den < 10 ^ p`, for positive
`num` and `den`. -/
def decimalPoint (num den : Nat) : Int :=
  if den ≤ num then decimalLength (num / den)
  else
    let inverse := (den + num - 1) / num
    1 - (if inverse ≤ 1 then 0 else decimalLength (inverse - 1) : Nat)

/-- The digits of `n` without trailing zeros, and the number of zeros dropped. -/
def trimZeros (n : Nat) : List Char :=
  ((Nat.toDigits 10 n).reverse.dropWhile (· = '0')).reverse

/-- The numeral of `n * 10 ^ power`. -/
def layOut (negative : Bool) (n : Nat) (power : Int) : Numeral :=
  if n = 0 then ⟨negative, ['0'], some ['0'], none⟩
  else Numeral.ofDigits Numeral.doubleLayout negative (trimZeros n) (decimalLength n + power)

/-- The two neighbours of `num / den` among the multiples of `10 ^ power`, the nearer one first and
of two equally near ones the even one. -/
def neighbours (num den : Nat) (power : Int) : List Nat :=
  let num := num * Nat.pow 10 (-power).toNat
  let den := den * Nat.pow 10 power.toNat
  let below := num / den
  let r := num % den
  if 2 * r < den ∨ (2 * r = den ∧ below % 2 = 0) then [below, below + 1] else [below + 1, below]

/-- The numerals with `count` significant digits next to a double, the nearer one first. -/
def candidates (x : Double) (count : Nat) : List Numeral :=
  let (num, den) := x.fraction
  let power := decimalPoint num den - count
  (neighbours num den power).map fun n => layOut x.negative n power

/-- A numeral that denotes the double exactly. -/
def exactNumeral (x : Double) : Numeral :=
  if x.scale < 0 then
    layOut x.negative (x.significand * Nat.pow 5 (-x.scale).toNat) x.scale
  else layOut x.negative (x.significand * Nat.pow 2 x.scale.toNat) 0

/-- The shortest numeral that the double is nearest to. Seventeen digits always suffice. -/
def numeral (x : Double) : Numeral :=
  if x.rank = 0 then layOut x.negative 0 0
  else
    let shortest := (List.range 17).findSome? fun count =>
      (x.candidates (count + 1)).find? fun n => n.nearest? = some x
    shortest.getD x.exactNumeral

end Double

end QueryShaping
