import QueryShaping.Json.Basic
import QueryShaping.Proofs.Rounding

/-!
# Numbers that are read back

An integer is read back from its numeral. A double need not be, since reading rounds up to three times:
the digits to a significand, the power of ten, and their product or quotient. Where the digits have at
most 53 bits and the power of ten is small, both are doubles themselves. Then one rounding is left, and
what is read is the nearest double.

## What this module delivers

- `Double.ReadsBack`, `Json.ReadsBack`: the doubles that are read back from their numerals, and the
  values with no other doubles.
- `Number.ofNumeral?_int`: integers are read back.
- `Double.times?_eq`, `Double.over?_eq`: products and quotients are rounded from their exact values.
- `Numeral.gathered_eq`: digits that fit 64 bits are gathered in whole.
- `Numeral.double?_of_short`: a short numeral is read as the nearest double.
- `Double.readsBack_of_short`: a double with a short numeral is read back.
-/

set_option autoImplicit false

namespace QueryShaping

/-! ## Values that are read back -/

/-- The double is read back from its numeral. -/
def Double.ReadsBack (x : Double) : Prop := x.numeral.double? = some x

instance (x : Double) : Decidable x.ReadsBack := inferInstanceAs (Decidable (_ = _))

namespace Json

mutual
/-- The doubles of a value. Uses auxiliary list forms so the nested recursion is structural. -/
def doubles : Json → List Double
  | .number (.double x) => [x]
  | .list items => itemDoubles items
  | .map members => memberDoubles members
  | _ => []
/-- The doubles of the items of a list. -/
def itemDoubles : List Json → List Double
  | [] => []
  | item :: rest => doubles item ++ itemDoubles rest
/-- The doubles of the members of a map. -/
def memberDoubles : List (String × Json) → List Double
  | [] => []
  | (_, value) :: rest => doubles value ++ memberDoubles rest
end

/-- All doubles of the value are read back from their numerals. -/
def ReadsBack (v : Json) : Prop := ∀ x ∈ v.doubles, x.ReadsBack

instance (v : Json) : Decidable v.ReadsBack := inferInstanceAs (Decidable (∀ x ∈ v.doubles, _))

end Json

/-! ## Integers -/

/-- An integer that fits is made of itself. -/
theorem WideInt.ofInt?_val (n : WideInt) : WideInt.ofInt? n.val = some n := by
  rw [WideInt.ofInt?, dif_pos ⟨n.lower, n.upper⟩]

namespace Number

/-- An integer is read back from its numeral. -/
theorem ofNumeral?_int (n : WideInt) : ofNumeral? (numeral (.int n)) = some (.int n) := by
  have hcoefficient : n.numeral.coefficient = n.val.natAbs := by
    unfold WideInt.numeral Numeral.coefficient
    rw [Option.getD_none, List.append_nil, Numeral.digitsValue_toDigits]
  have hvalue : (if n.numeral.negative = true then -(n.val.natAbs : ℤ) else n.val.natAbs)
      = n.val := by
    show (if decide (n.val < 0) = true then -(n.val.natAbs : ℤ) else n.val.natAbs) = n.val
    rcases lt_or_ge n.val 0 with hneg | hneg
    · rw [if_pos (by simpa using hneg)]
      omega
    · rw [if_neg (by simpa using hneg)]
      omega
  -- zero is written without a sign
  have hplain : (n.numeral.isInteger && !(n.numeral.negative && n.val.natAbs == 0)) = true := by
    by_cases hzero : n.val = 0 <;> simp [WideInt.numeral, Numeral.isInteger, hzero]
  rw [ofNumeral?]
  simp only [numeral, hcoefficient, hplain, if_true, hvalue, n.ofInt?_val]

/-- The numeral of a double is read as a double. -/
theorem ofNumeral?_double (x : Double) :
    ofNumeral? (numeral (.double x)) = x.numeral.double?.map .double := by
  obtain ⟨m, power, hm⟩ := x.exists_layOut
  have hpoint : x.numeral.isInteger = false := by
    rw [hm]
    exact Double.isInteger_layOut _ _ _
  rw [ofNumeral?]
  simp only [numeral, hpoint, Bool.false_and, Bool.false_eq_true, if_false]

end Number

/-- A number is read back where it is no double or a double that is. -/
theorem Json.ofNumeral?_numeral {n : Number} (h : (Json.number n).ReadsBack) :
    Number.ofNumeral? n.numeral = some n := by
  cases n with
  | int n => exact Number.ofNumeral?_int n
  | double x =>
    have hback : x.numeral.double? = some x := h x List.mem_cons_self
    rw [Number.ofNumeral?_double, hback]
    rfl

/-! ## Exact steps -/

namespace Double

/-- A magnitude of 53 significant bits is that of a double, far from the bounds of the exponent. -/
theorem exists_of_magnitude {m : ℕ} {scale : ℤ} (hm : m < 2 ^ 53) (hlow : -1022 ≤ scale)
    (hhigh : scale ≤ 971) : ∃ x : Double, x.negative = false ∧ x.magnitude = m * 2 ^ scale := by
  by_cases hzero : m = 0
  · refine ⟨zero false, rfl, ?_⟩
    rw [hzero, Nat.cast_zero, zero_mul]
    exact zero_mul _
  -- the significand is shifted to 53 bits
  have hbits : m.log2 ≤ 52 := by
    have := (Nat.log2_lt hzero).2 hm
    omega
  have hshift : 2 ^ 52 = 2 ^ m.log2 * 2 ^ (52 - m.log2) := by rw [← pow_add, Nat.add_sub_cancel' hbits]
  let significand := m * 2 ^ (52 - m.log2)
  have hleast : 2 ^ 52 ≤ significand := by
    rw [hshift]
    exact Nat.mul_le_mul_right _ (Nat.log2_self_le hzero)
  have hgreatest : significand < 2 ^ 53 := by
    have hstep : 2 ^ 53 = 2 ^ (m.log2 + 1) * 2 ^ (52 - m.log2) := by
      rw [← pow_add]
      congr 1
      omega
    rw [hstep]
    exact Nat.mul_lt_mul_of_pos_right Nat.lt_log2_self (by positivity)
  let grid := (scale + m.log2 + 1022).toNat
  have hgrid : (grid : ℤ) = scale + m.log2 + 1022 := Int.toNat_of_nonneg (by omega)
  have hrank : grid * 2 ^ 52 + significand < rankLimit := by
    rw [rankLimit, Nat.pow_eq]
    omega
  have hsignificand : significandOfRank (grid * 2 ^ 52 + significand) = significand := by
    rw [significandOfRank, Nat.pow_eq, if_neg (by omega)]
    omega
  have hscale : scaleOfRank (grid * 2 ^ 52 + significand) = scale - (52 - m.log2 : ℕ) := by
    rw [scaleOfRank, Nat.pow_eq, if_neg (by omega)]
    omega
  refine ⟨⟨false, grid * 2 ^ 52 + significand, hrank⟩, rfl, ?_⟩
  show (significandOfRank _ : ℚ) * 2 ^ scaleOfRank _ = _
  have hvalue : (significand : ℚ) = m * 2 ^ (52 - m.log2) := by push_cast [significand]; rfl
  rw [hsignificand, hscale, zpow_sub₀ two_ne_zero, zpow_natCast, hvalue]
  field_simp

theorem fraction_pos (x : Double) : 0 < x.fraction.2 := Nat.pow_pos (by norm_num)

/-- A double is the value of its fraction. -/
theorem fraction_div (x : Double) : (x.fraction.1 / x.fraction.2 : ℚ) = x.magnitude := by
  rw [magnitude, zpow_eq_div two_ne_zero]
  simp only [fraction, Nat.pow_eq]
  push_cast
  ring

variable {x y : Double} {num den : ℕ}

/-- A product is rounded from its exact value. -/
theorem times?_eq (hden : 0 < den) (h : (num / den : ℚ) = x.magnitude * y.magnitude) :
    x.times? y = ofFraction? (x.negative != y.negative) num den := by
  apply ofFraction?_congr (Nat.mul_pos x.fraction_pos y.fraction_pos) hden
  rw [h, ← x.fraction_div, ← y.fraction_div, div_mul_div_comm]
  push_cast
  rfl

/-- So is a quotient. -/
theorem over?_eq (hden : 0 < den) (hy : y.magnitude ≠ 0)
    (h : (num / den : ℚ) = x.magnitude / y.magnitude) :
    x.over? y = ofFraction? (x.negative != y.negative) num den := by
  have hdivisor : 0 < y.fraction.1 := by
    refine Nat.pos_of_ne_zero fun hzero => hy ?_
    rw [← y.fraction_div, hzero, Nat.cast_zero, zero_div]
  apply ofFraction?_congr (Nat.mul_pos x.fraction_pos hdivisor) hden
  rw [h, ← x.fraction_div, ← y.fraction_div, div_div_div_eq]
  push_cast
  rfl

/-- The first powers of ten are doubles. -/
theorem tenTo?_of_le {k : ℕ} (hk : k ≤ 22) :
    ∃ t : Double, tenTo? k = some t ∧ t.negative = false ∧ t.magnitude = 10 ^ k := by
  have hfive : 5 ^ k < 2 ^ 53 :=
    lt_of_le_of_lt (Nat.pow_le_pow_right (by norm_num) hk) (by norm_num : 5 ^ 22 < 2 ^ 53)
  obtain ⟨t, hpositive, ht⟩ := exists_of_magnitude hfive (by omega : -1022 ≤ (k : ℤ)) (by omega)
  have hvalue : t.magnitude = 10 ^ k := by
    have hten : (10 : ℚ) = 5 * 2 := by norm_num
    rw [ht, zpow_natCast, hten, mul_pow]
    push_cast
    rfl
  refine ⟨t, ?_, hpositive, hvalue⟩
  rw [tenTo?, ← hpositive]
  apply ofFraction?_of_magnitude one_pos
  rw [hvalue, Nat.pow_eq]
  push_cast
  rw [div_one]

/-- A number that is a double is scaled by a small power of ten with one rounding. -/
theorem scaled?_of_le {c : ℕ} {e : ℤ} (hx : x.negative = false) (hc : x.magnitude = c)
    (he : e.natAbs ≤ 22) :
    x.scaled? e = ofFraction? false (c * Nat.pow 10 e.toNat) (Nat.pow 10 (-e).toNat) := by
  have hden : 0 < Nat.pow 10 (-e).toNat := Nat.pow_pos (by norm_num)
  cases e with
  | ofNat k =>
    obtain ⟨t, ht, hpositive, hvalue⟩ := tenTo?_of_le (k := k) (by simpa using he)
    have hk : k ≤ greatestTen := le_trans (by simpa using he) (by decide : 22 ≤ greatestTen)
    rw [scaled?, if_pos hk, ht]
    show x.times? t = _
    rw [times?_eq hden, hx, hpositive]
    · rfl
    · rw [hc, hvalue]
      simp
  | negSucc k =>
    have hk : k + 1 ≤ 22 := by simpa using he
    obtain ⟨t, ht, hpositive, hvalue⟩ := tenTo?_of_le hk
    have hrest : k % greatestTen = k := Nat.mod_eq_of_lt (by rw [greatestTen]; omega)
    have hrounds : k / greatestTen = 0 := Nat.div_eq_of_lt (by rw [greatestTen]; omega)
    rw [scaled?, hrest, hrounds, lowered?, ht]
    show x.over? t = _
    rw [over?_eq hden, hx, hpositive]
    · rfl
    · rw [hvalue]
      positivity
    · rw [hc, hvalue]
      simp

end Double

/-! ## Significands -/

namespace Numeral

theorem le_ofDigitChars (ds : List Char) (significand : ℕ) :
    significand ≤ Nat.ofDigitChars 10 ds significand := by
  induction ds generalizing significand with
  | nil => exact le_refl _
  | cons d ds ih =>
    rw [Nat.ofDigitChars_cons]
    exact le_trans (by omega) (ih _)

/-- Digits that fit are gathered, and none is left. -/
theorem gather_eq {ds : List Char} {significand : ℕ}
    (h : Nat.ofDigitChars 10 ds significand < 2 ^ 64) :
    gather significand ds = (Nat.ofDigitChars 10 ds significand, []) := by
  induction ds generalizing significand with
  | nil => rfl
  | cons d ds ih =>
    rw [Nat.ofDigitChars_cons] at h
    have hfirst := lt_of_le_of_lt (le_ofDigitChars ds _) h
    rw [gather, Nat.ofDigitChars_cons, Nat.ofDigitChars_cons, Nat.ofDigitChars_nil]
    simp only [Nat.pow_eq, if_pos hfirst]
    exact ih h

variable {n : Numeral}

/-- Where all digits fit, the significand is the coefficient. -/
theorem gathered_eq (h : n.coefficient < 2 ^ 64) :
    n.gathered = (n.coefficient, -((n.decimals.getD []).length : ℤ)) := by
  have happend : n.coefficient
      = Nat.ofDigitChars 10 (n.decimals.getD []) (Nat.ofDigitChars 10 n.whole 0) :=
    Nat.ofDigitChars_append 0
  rw [happend] at h ⊢
  have hwhole := gather_eq (lt_of_le_of_lt (le_ofDigitChars _ _) h)
  simp only [gathered, hwhole, gather_eq h, List.length_nil]
  simp

/-! ## Short numerals -/

/-- A numeral whose digits make a double and whose power of ten is one. -/
structure Short (n : Numeral) : Prop where
  coefficient : n.coefficient < 2 ^ 53
  power : n.power.natAbs ≤ 22
  /-- The written exponent fits 32 bits with a sign. -/
  exponent : ∀ part ∈ n.exponent, digitsValue part.2 < 2 ^ 31

instance : DecidablePred Short := fun n =>
  decidable_of_iff (n.coefficient < 2 ^ 53 ∧ n.power.natAbs ≤ 22 ∧
    ∀ part ∈ n.exponent, digitsValue part.2 < 2 ^ 31)
    ⟨fun ⟨hc, hp, he⟩ => ⟨hc, hp, he⟩, fun ⟨hc, hp, he⟩ => ⟨hc, hp, he⟩⟩

/-- Its digits make a double, which is scaled by the power of ten. -/
theorem Short.unsigned? (h : n.Short) :
    ∃ x : Double, x.negative = false ∧ x.magnitude = n.coefficient ∧
      n.unsigned? = x.scaled? n.power := by
  obtain ⟨x, hpositive, hx⟩ := Double.exists_of_magnitude h.coefficient (by norm_num : -1022 ≤ (0 : ℤ))
    (by norm_num)
  rw [zpow_zero, mul_one] at hx
  have hexact : Double.ofFraction? false n.coefficient 1 = some x := by
    rw [← hpositive]
    apply Double.ofFraction?_of_magnitude one_pos
    rw [hx, Nat.cast_one, div_one]
  have hgathered := gathered_eq (lt_trans h.coefficient (by norm_num))
  refine ⟨x, hpositive, hx, ?_⟩
  rw [Numeral.unsigned?, hgathered]
  simp only [hexact, Option.bind_eq_bind, Option.bind_some]
  rcases hpart : n.exponent with - | ⟨down, digits⟩
  · simp only [Numeral.power, hpart, zero_sub]
  · have hfits : digitsValue digits < 2 ^ 31 := h.exponent _ hpart
    simp only [Nat.pow_eq, if_pos hfits, Numeral.power, hpart]
    congr 1
    cases down with
    | false =>
      simp only [Bool.false_eq_true, if_false]
      omega
    | true =>
      simp only [if_true]
      omega

/-- The nearest double to a short numeral is far from the bounds that need no rounding. -/
theorem Short.nearest? (h : n.Short) :
    n.nearest? = Double.ofFraction? n.negative (n.coefficient * Nat.pow 10 n.power.toNat)
      (Nat.pow 10 (-n.power).toNat) := by
  rw [Numeral.nearest?, Double.ofDecimal?]
  split
  · next hzero =>
    rw [hzero, zero_mul]
    rfl
  · next hzero =>
    have hlength : Double.decimalLength n.coefficient ≤ 16 :=
      (Nat.length_toDigits_le_iff (by norm_num) (by norm_num)).2
        (lt_trans h.coefficient (by norm_num))
    have hpower := h.power
    rw [if_neg (by omega), if_neg (by omega)]

/-- A short numeral is read as the nearest double. -/
theorem double?_of_short (h : n.Short) : n.double? = n.nearest? := by
  obtain ⟨x, hpositive, hx, hread⟩ := h.unsigned?
  rw [double?, hread, Double.scaled?_of_le hpositive hx h.power, h.nearest?]
  simp only [Double.ofFraction?]
  split <;> rfl

end Numeral

/-- A double with a short numeral is read back. -/
theorem Double.readsBack_of_short {x : Double} (h : x.numeral.Short) : x.ReadsBack := by
  rw [ReadsBack, Numeral.double?_of_short h, x.nearest?_numeral]

-- without short digits this can fail: `1.3238327648331623` is read as `1.3238327648331625`
example : ¬ Double.ReadsBack ⟨false, 4608640831919050395, by decide⟩ := by decide +kernel

end QueryShaping
