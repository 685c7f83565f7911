import QueryShaping.Number.Double

/-!
# Written numbers

A `Numeral` is the written form of a number: a sign, the digits before the point, the digits after
it and an exponent. `Numeral.scan` splits one off the front of a text, `Numeral.toChars` writes one.

## What this module delivers

- `Numeral.scan`: the longest numeral at the front of a text that starts with a digit or a minus
  sign. It fails where the text ends inside the numeral or continues it wrongly.
- `Numeral.nearest?`: the double nearest to what the numeral denotes.
- `Numeral.ofDigits`: the layout of a decimal number given by its digits and exponent.
-/

set_option autoImplicit false

namespace QueryShaping

/-- The written form of a number. Digits are kept as characters, most significant first. -/
structure Numeral where
  negative : Bool
  whole : List Char
  /-- The digits after the point, if there is a point. -/
  decimals : Option (List Char)
  /-- Whether the exponent is negative, and its digits. -/
  exponent : Option (Bool × List Char)
  deriving DecidableEq, Repr

/-- Why no numeral could be read. -/
inductive NumeralFault where
  /-- The text ends where a digit is needed. -/
  | cutOff
  /-- Another character stands where a digit is needed, or a digit follows a leading zero. -/
  | malformed
  deriving DecidableEq, Repr

namespace Numeral

/-! ## Scanning -/

/-- The digits at the front of a text, and the rest. -/
def spanDigits : List Char → List Char × List Char
  | [] => ([], [])
  | c :: rest =>
    if c.isDigit then
      let (digits, after) := spanDigits rest
      (c :: digits, after)
    else ([], c :: rest)

/-- At least one digit at the front of a text, and the rest. -/
def someDigits (cs : List Char) : Except NumeralFault (List Char × List Char) :=
  match spanDigits cs with
  | ([], []) => .error .cutOff
  | ([], _ :: _) => .error .malformed
  | found => .ok found

/-- The digits before the point: a lone zero, or digits that do not start with one. -/
def scanWhole (cs : List Char) : Except NumeralFault (List Char × List Char) :=
  match someDigits cs with
  | .ok ('0' :: _ :: _, _) => .error .malformed
  | result => result

/-- The point and the digits after it, if there is a point. -/
def scanDecimals : List Char → Except NumeralFault (Option (List Char) × List Char)
  | '.' :: rest => do
    let found ← someDigits rest
    return (some found.1, found.2)
  | cs => return (none, cs)

/-- A sign of an exponent, if there is one: whether it is a minus sign, and the rest. -/
def scanSign : List Char → Bool × List Char
  | '+' :: rest => (false, rest)
  | '-' :: rest => (true, rest)
  | cs => (false, cs)

/-- The exponent, if there is one. -/
def scanExponent (cs : List Char) : Except NumeralFault (Option (Bool × List Char) × List Char) :=
  match cs with
  | c :: rest =>
    if c = 'e' ∨ c = 'E' then do
      let found ← someDigits (scanSign rest).2
      return (some ((scanSign rest).1, found.1), found.2)
    else return (none, cs)
  | [] => return (none, [])

/-- A minus sign, if there is one: whether there is, and the rest. -/
def scanMinus : List Char → Bool × List Char
  | '-' :: rest => (true, rest)
  | cs => (false, cs)

/-- Splits a numeral off the front of a text. -/
def scan (cs : List Char) : Except NumeralFault (Numeral × List Char) := do
  let whole ← scanWhole (scanMinus cs).2
  let decimals ← scanDecimals whole.2
  let exponent ← scanExponent decimals.2
  return (⟨(scanMinus cs).1, whole.1, decimals.1, exponent.1⟩, exponent.2)

/-! ### A numeral shortens the text -/

theorem length_spanDigits (cs : List Char) :
    (spanDigits cs).1.length + (spanDigits cs).2.length = cs.length := by
  fun_induction spanDigits cs with
  | case1 => rfl
  | case2 c rest _ digits after h ih =>
    rw [h] at ih
    simp only [List.length_cons] at ih ⊢
    omega
  | case3 => simp

theorem length_someDigits_lt {cs digits rest : List Char}
    (h : someDigits cs = .ok (digits, rest)) : rest.length < cs.length := by
  have hlen := length_spanDigits cs
  unfold someDigits at h
  split at h
  · simp at h
  · simp at h
  · next hempty hrest =>
    rw [Except.ok.inj h] at hlen hempty hrest
    cases digits with
    | nil => cases rest <;> simp_all
    | cons d ds =>
      simp only [List.length_cons] at hlen
      omega

theorem length_scanWhole_lt {cs digits rest : List Char}
    (h : scanWhole cs = .ok (digits, rest)) : rest.length < cs.length := by
  unfold scanWhole at h
  split at h
  · simp at h
  · exact length_someDigits_lt h

theorem length_scanDecimals_le {cs rest : List Char} {decimals : Option (List Char)}
    (h : scanDecimals cs = .ok (decimals, rest)) : rest.length ≤ cs.length := by
  unfold scanDecimals at h
  split at h
  · next after =>
    cases hd : someDigits after with
    | error e => simp [hd, bind, Except.bind] at h
    | ok found =>
      have := length_someDigits_lt hd
      simp [hd, bind, Except.bind, pure, Except.pure] at h
      simp only [List.length_cons, ← h.2]
      omega
  · simp [pure, Except.pure] at h
    simp [h.2]

theorem length_scanSign_le (cs : List Char) : (scanSign cs).2.length ≤ cs.length := by
  unfold scanSign
  split <;> simp

theorem length_scanExponent_le {cs rest : List Char} {exponent : Option (Bool × List Char)}
    (h : scanExponent cs = .ok (exponent, rest)) : rest.length ≤ cs.length := by
  unfold scanExponent at h
  split at h
  · next c after =>
    split at h
    · have hsign := length_scanSign_le after
      cases hd : someDigits (scanSign after).2 with
      | error e => simp [hd, bind, Except.bind] at h
      | ok found =>
        have := length_someDigits_lt hd
        simp [hd, bind, Except.bind, pure, Except.pure] at h
        simp only [List.length_cons, ← h.2]
        omega
    · simp [pure, Except.pure] at h
      simp [h.2]
  · simp [pure, Except.pure] at h
    simp [h.2]

theorem length_scanMinus_le (cs : List Char) : (scanMinus cs).2.length ≤ cs.length := by
  unfold scanMinus
  split <;> simp

theorem length_scan_lt {cs rest : List Char} {n : Numeral} (h : scan cs = .ok (n, rest)) :
    rest.length < cs.length := by
  unfold scan at h
  have hminus := length_scanMinus_le cs
  cases hw : scanWhole (scanMinus cs).2 with
  | error e => simp [hw, bind, Except.bind] at h
  | ok whole =>
    have hwhole := length_scanWhole_lt hw
    cases hd : scanDecimals whole.2 with
    | error e => simp [hw, hd, bind, Except.bind] at h
    | ok decimals =>
      have hdecimals := length_scanDecimals_le hd
      cases he : scanExponent decimals.2 with
      | error e => simp [hw, hd, he, bind, Except.bind] at h
      | ok exponent =>
        have hexponent := length_scanExponent_le he
        simp [hw, hd, he, bind, Except.bind, pure, Except.pure] at h
        rw [← h.2]
        omega

/-! ## Value -/

/-- The number that a list of decimal digits spells. -/
def digitsValue (digits : List Char) : Nat := Nat.ofDigitChars 10 digits 0

/-- All digits of the numeral as one integer. -/
def coefficient (n : Numeral) : Nat := digitsValue (n.whole ++ n.decimals.getD [])

/-- The power of ten that the coefficient is multiplied with. -/
def power (n : Numeral) : Int :=
  let written : Int := match n.exponent with
    | none => 0
    | some (false, digits) => digitsValue digits
    | some (true, digits) => -(digitsValue digits : Int)
  written - (n.decimals.getD []).length

/-- The double nearest to the number that the numeral denotes, `none` when it is out of range. -/
def nearest? (n : Numeral) : Option Double :=
  Double.ofDecimal? n.negative n.coefficient n.power

/-- Whether the numeral is written as an integer, without point and exponent. -/
def isInteger (n : Numeral) : Bool := n.decimals.isNone && n.exponent.isNone

/-! ## Writing -/

/-- The characters of a numeral. A positive exponent is written with its sign. -/
def toChars (n : Numeral) : List Char :=
  (if n.negative then ['-'] else []) ++ n.whole
    ++ (match n.decimals with
      | none => []
      | some digits => '.' :: digits)
    ++ (match n.exponent with
      | none => []
      | some (false, digits) => 'e' :: '+' :: digits
      | some (true, digits) => 'e' :: '-' :: digits)

/-- Where the written form of a double changes its layout, as bounds on the exponent of ten of the
first digit. -/
structure Layout where
  /-- From this exponent on the number is written without exponent. -/
  least : Int
  /-- The last exponent that is written without exponent. -/
  greatest : Int

/-- Doubles from `0.00001` up to `10 ^ 16` are written without exponent. -/
def doubleLayout : Layout := ⟨-5, 15⟩

/-- Lays out the number `0.d₁d₂… * 10 ^ point`, where `digits` are `d₁d₂…`: without exponent inside
the bounds of the layout, then always with a point and a digit after it, and else with one digit
before the point. -/
def ofDigits (layout : Layout) (negative : Bool) (digits : List Char) (point : Int) : Numeral :=
  let first := point - 1
  if first < layout.least ∨ layout.greatest < first then
    let exponent := (decide (first < 0), Nat.toDigits 10 first.natAbs)
    match digits with
    | [] => ⟨negative, ['0'], none, some exponent⟩
    | [d] => ⟨negative, [d], none, some exponent⟩
    | d :: rest => ⟨negative, [d], some rest, some exponent⟩
  else if point ≤ 0 then
    ⟨negative, ['0'], some (List.replicate (-point).toNat '0' ++ digits), none⟩
  else
    let places := point.toNat
    let whole := digits.take places ++ List.replicate (places - digits.length) '0'
    let decimals := digits.drop places
    ⟨negative, whole, some (if decimals.isEmpty then ['0'] else decimals), none⟩

end Numeral

end QueryShaping
