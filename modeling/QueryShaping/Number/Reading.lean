import QueryShaping.Number.Numeral

/-!
# Reading doubles

A numeral is read as a double in a few roundings and without exact arithmetic: as many of its first
digits as fit 64 bits are gathered into a significand, the significand becomes a double, and that is
multiplied with or divided by a power of ten. What is read may therefore miss the double nearest to
what the numeral denotes.

## What this module delivers

- `Numeral.gather`: the digits that fit a significand of 64 bits.
- `Double.times?`, `Double.over?`: products and quotients, rounded.
- `Double.scaled?`: a double times a power of ten, `none` when it is out of range.
- `Numeral.double?`: the double that a numeral is read as, `none` when it is out of range.
-/

set_option autoImplicit false

namespace QueryShaping

/-! ## Arithmetic of doubles -/

namespace Double

/-- The product of two doubles, rounded. -/
def times? (x y : Double) : Option Double :=
  ofFraction? (x.negative != y.negative) (x.fraction.1 * y.fraction.1) (x.fraction.2 * y.fraction.2)

/-- The quotient of two doubles, rounded, where the divisor is not zero. -/
def over? (x y : Double) : Option Double :=
  ofFraction? (x.negative != y.negative) (x.fraction.1 * y.fraction.2) (x.fraction.2 * y.fraction.1)

/-- The double nearest to a power of ten. -/
def tenTo? (k : Nat) : Option Double := ofFraction? false (Nat.pow 10 k) 1

/-- The largest power of ten that a double is multiplied with or divided by in one step. -/
def greatestTen : Nat := 308

/-- A double divided by the largest power of ten for a number of rounds, and then by a smaller one.
A double that has become zero is not divided any more. -/
def lowered? (rest : Nat) : Nat → Double → Option Double
  | 0, x => do x.over? (← tenTo? rest)
  | rounds + 1, x =>
    if x.rank = 0 then some x
    else do lowered? rest rounds (← x.over? (← tenTo? greatestTen))

/-- A double times a power of ten. There is one step up, and there may be several steps down. -/
def scaled? (x : Double) : Int → Option Double
  | .ofNat k =>
    if k ≤ greatestTen then do x.times? (← tenTo? k)
    else if x.rank = 0 then some x
    else none
  | .negSucc k => x.lowered? (k % greatestTen + 1) (k / greatestTen)

end Double

/-! ## Significands -/

namespace Numeral

/-- Appends digits to a significand up to the first one that does not fit 64 bits. The digits that
are left come second. -/
def gather : Nat → List Char → Nat × List Char
  | significand, [] => (significand, [])
  | significand, d :: rest =>
    let longer := Nat.ofDigitChars 10 [d] significand
    if longer < Nat.pow 2 64 then gather longer rest else (significand, d :: rest)

/-- The significand of a numeral, and the power of ten that goes with it apart from the exponent. Of
the digits that are not gathered those before the point count as zeros. -/
def gathered (n : Numeral) : Nat × Int :=
  let decimals := n.decimals.getD []
  let whole := gather 0 n.whole
  let all := gather whole.1 decimals
  (all.1, whole.2.length + all.2.length - decimals.length)

/-- The double that a numeral is read as, apart from its sign. An exponent that does not fit 32 bits
with a sign is not looked at: what it belongs to is zero, or else out of range. -/
def unsigned? (n : Numeral) : Option Double := do
  let (significand, power) := n.gathered
  let x ← Double.ofFraction? false significand 1
  match n.exponent with
  | none => x.scaled? power
  | some (down, digits) =>
    let written := digitsValue digits
    if written < Nat.pow 2 31 then x.scaled? (if down then power - written else power + written)
    else if significand = 0 ∨ down then some (.zero false)
    else none

/-- The double that a numeral is read as. -/
def double? (n : Numeral) : Option Double :=
  n.unsigned?.map fun x => { x with negative := n.negative }

end Numeral

end QueryShaping
