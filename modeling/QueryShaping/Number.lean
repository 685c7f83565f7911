import QueryShaping.Number.Reading
import QueryShaping.Number.Shortest

/-!
# Numbers

A number of a document is an integer of 64 bits, signed or unsigned, or a finite double. Integers
keep their exact value; what is written with a point or an exponent, what lies outside the integers
of 64 bits and a negative zero are doubles.

## What this module delivers

- `Number.ofNumeral?`: the number that a numeral is read as, `none` when it is out of range.
- `Number.numeral`: the written form of a number.
- `Number.same`: equality of numbers. An integer never equals a double, and the two zeros are equal.
-/

set_option autoImplicit false

namespace QueryShaping

/-- An integer that fits 64 bits, signed or unsigned. -/
structure WideInt where
  val : Int
  /-- At least `-2 ^ 63`. -/
  lower : -9223372036854775808 ≤ val
  /-- Below `2 ^ 64`. -/
  upper : val < 18446744073709551616
  deriving DecidableEq

/-- A number of a document. -/
inductive Number where
  | int (n : WideInt)
  | double (x : Double)
  deriving DecidableEq

namespace WideInt

/-- The integer, if it fits. -/
def ofInt? (n : Int) : Option WideInt :=
  if h : -9223372036854775808 ≤ n ∧ n < 18446744073709551616 then some ⟨n, h.1, h.2⟩ else none

/-- An unsigned word as an integer. -/
def ofUInt64 (n : UInt64) : WideInt :=
  ⟨n.toNat, by omega, by have := n.toNat_lt; omega⟩

/-- The integer as an unsigned word, if it is not negative. -/
def toUInt64? (n : WideInt) : Option UInt64 :=
  if 0 ≤ n.val then some (UInt64.ofNat n.val.toNat) else none

/-- The written form of an integer. -/
def numeral (n : WideInt) : Numeral :=
  ⟨decide (n.val < 0), Nat.toDigits 10 n.val.natAbs, none, none⟩

end WideInt

namespace Number

/-- The number that a numeral is read as. -/
def ofNumeral? (n : Numeral) : Option Number :=
  let magnitude := n.coefficient
  if n.isInteger && !(n.negative && magnitude == 0) then
    match WideInt.ofInt? (if n.negative then -magnitude else magnitude) with
    | some i => some (.int i)
    | none => n.double?.map .double
  else n.double?.map .double

/-- The written form of a number. -/
def numeral : Number → Numeral
  | .int n => n.numeral
  | .double x => x.numeral

/-- The characters of the written form. -/
def toChars (n : Number) : List Char := n.numeral.toChars

/-- The text of the written form. -/
def text (n : Number) : String := String.ofList n.toChars

/-- The number as an unsigned word, if it is a nonnegative integer. -/
def toUInt64? : Number → Option UInt64
  | .int n => n.toUInt64?
  | .double _ => none

/-- Equality of numbers. -/
def same : Number → Number → Bool
  | .int m, .int n => m == n
  | .double x, .double y => x.same y
  | _, _ => false

instance : BEq Number := ⟨same⟩

end Number

end QueryShaping
