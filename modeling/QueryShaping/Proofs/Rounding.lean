import Mathlib.Algebra.Order.Field.Power
import Mathlib.Algebra.Order.Field.Rat
import Mathlib.Tactic.FieldSimp
import Mathlib.Tactic.GCongr
import Mathlib.Tactic.Linarith
import Mathlib.Tactic.NormNum
import Mathlib.Tactic.Positivity
import Mathlib.Tactic.Ring
import QueryShaping.Proofs.Numerals

/-!
# Nearest doubles

A fraction is rounded to the nearest double. A fraction that is the exact value of a double is rounded
to that double, since the grid on which it is rounded is the one that the double lies on. So a double
is always the nearest one to its numeral: to one of the short ones that were tried before, or else to
the exact one.

Values are compared as rational numbers here, with integers as exponents.

## What this module delivers

- `Double.magnitude`, `Numeral.magnitude`: what doubles and numerals denote, apart from their signs.
- `Double.nearestRank_of_eq`: an exact value is rounded to its own rank.
- `Double.nearest?_of_magnitude`: to a numeral with the exact value of a double the double is nearest.
- `Double.magnitude_layOut`: laying out a decimal number keeps its value.
- `Double.nearest?_numeral`: a double is the nearest one to its numeral.
-/

set_option autoImplicit false

namespace QueryShaping

/-! ## Powers with integers as exponents -/

/-- A power is a fraction of two powers with natural exponents, one of which is zero. -/
theorem zpow_eq_div {b : ℚ} (hb : b ≠ 0) (k : ℤ) : b ^ k = b ^ k.toNat / b ^ (-k).toNat := by
  rw [← zpow_natCast, ← zpow_natCast, ← zpow_sub₀ hb, Int.toNat_sub_toNat_neg]

/-- Scaling both sides of a fraction by powers with natural exponents scales it by their quotient. -/
theorem scaled_div {b : ℕ} (hb : b ≠ 0) (num den : ℕ) (k : ℤ) :
    ((num * b ^ (-k).toNat : ℕ) : ℚ) / (den * b ^ k.toNat : ℕ) = num / den / b ^ k := by
  have hb' : (b : ℚ) ≠ 0 := Nat.cast_ne_zero.2 hb
  rw [zpow_eq_div hb']
  push_cast
  field_simp

/-! ## Rounding of exact values -/

namespace Double

/-- The magnitude of a double. -/
def magnitude (x : Double) : ℚ := x.significand * 2 ^ x.scale

theorem roundDiv_mul (m : ℕ) {d : ℕ} (hd : 0 < d) : roundDiv (m * d) d = m := by
  rw [roundDiv]
  simp [Nat.mul_div_cancel m hd, hd]

section Exponent

variable {num den : ℕ}

/-- The binary exponent of a fraction is the one between whose powers the fraction lies. -/
theorem binaryExponent_spec (hnum : 0 < num) (hden : 0 < den) :
    (2 : ℚ) ^ binaryExponent num den ≤ num / den ∧
      (num / den : ℚ) < 2 ^ (binaryExponent num den + 1) := by
  have hden' : (0 : ℚ) < den := Nat.cast_pos.2 hden
  have htwo : (2 : ℚ) ≠ 0 := by norm_num
  -- the numbers of bits tell the exponent up to one
  have hnumLow : (2 : ℚ) ^ num.log2 ≤ num := by exact_mod_cast Nat.log2_self_le hnum.ne'
  have hnumHigh : (num : ℚ) < 2 ^ (num.log2 + 1) := by exact_mod_cast Nat.lt_log2_self
  have hdenLow : (2 : ℚ) ^ den.log2 ≤ den := by exact_mod_cast Nat.log2_self_le hden.ne'
  have hdenHigh : (den : ℚ) < 2 ^ (den.log2 + 1) := by exact_mod_cast Nat.lt_log2_self
  let k : ℤ := (num.log2 : ℤ) - (den.log2 : ℤ)
  have hpow : (2 : ℚ) ^ k = 2 ^ num.log2 / 2 ^ den.log2 := by
    show (2 : ℚ) ^ ((num.log2 : ℤ) - (den.log2 : ℤ)) = _
    rw [zpow_sub₀ htwo, zpow_natCast, zpow_natCast]
  have hbelow : (2 : ℚ) ^ (k - 1) ≤ num / den := by
    rw [zpow_sub_one₀ htwo, hpow, le_div_iff₀ hden']
    calc (2 : ℚ) ^ num.log2 / 2 ^ den.log2 * 2⁻¹ * den
        ≤ 2 ^ num.log2 / 2 ^ den.log2 * 2⁻¹ * 2 ^ (den.log2 + 1) := by gcongr
      _ = 2 ^ num.log2 := by rw [pow_succ]; field_simp
      _ ≤ num := hnumLow
  have habove : (num / den : ℚ) < 2 ^ (k + 1) := by
    rw [zpow_add_one₀ htwo, hpow, div_lt_iff₀ hden']
    calc (num : ℚ) < 2 ^ (num.log2 + 1) := hnumHigh
      _ = 2 ^ num.log2 / 2 ^ den.log2 * 2 * 2 ^ den.log2 := by rw [pow_succ]; field_simp
      _ ≤ 2 ^ num.log2 / 2 ^ den.log2 * 2 * den := by gcongr
  -- which of the two it is shows in a comparison of natural numbers
  have htest : den * 2 ^ k.toNat ≤ num * 2 ^ (-k).toNat ↔ (2 : ℚ) ^ k ≤ num / den := by
    have hscaled : (0 : ℚ) < (den * 2 ^ k.toNat : ℕ) := by positivity
    have hdiv := scaled_div (b := 2) (by norm_num) num den k
    rw [Nat.cast_ofNat] at hdiv
    rw [← one_le_div₀ (zpow_pos (by norm_num : (0 : ℚ) < 2) k), ← hdiv, one_le_div₀ hscaled,
      Nat.cast_le]
  have hcases : binaryExponent num den = if (2 : ℚ) ^ k ≤ num / den then k else k - 1 := by
    simp only [← htest]
    rfl
  rw [hcases]
  split
  · next h => exact ⟨h, habove⟩
  · next h => exact ⟨hbelow, by simpa using h⟩

end Exponent

/-! ### Fractions of one value

How a fraction is rounded depends on its value only, not on numerator and denominator. -/

theorem roundDiv_scale (num den : ℕ) {a : ℕ} (ha : 0 < a) :
    roundDiv (num * a) (den * a) = roundDiv num den := by
  have hquotient : num * a / (den * a) = num / den := Nat.mul_div_mul_right num den ha
  have hremainder : 2 * (num * a % (den * a)) = 2 * (num % den) * a := by
    rw [Nat.mul_mod_mul_right, mul_assoc]
  have hbelow : 2 * (num % den) * a < den * a ↔ 2 * (num % den) < den := Nat.mul_lt_mul_right ha
  have habove : den * a < 2 * (num % den) * a ↔ den < 2 * (num % den) := Nat.mul_lt_mul_right ha
  simp only [roundDiv, hquotient, hremainder, hbelow, habove]

theorem binaryExponent_scale {num den a : ℕ} (hnum : 0 < num) (hden : 0 < den) (ha : 0 < a) :
    binaryExponent (num * a) (den * a) = binaryExponent num den := by
  obtain ⟨hlow, hhigh⟩ := binaryExponent_spec hnum hden
  obtain ⟨hlow', hhigh'⟩ := binaryExponent_spec (Nat.mul_pos hnum ha) (Nat.mul_pos hden ha)
  have ha' : (a : ℚ) ≠ 0 := Nat.cast_ne_zero.2 ha.ne'
  push_cast at hlow' hhigh'
  rw [mul_div_mul_right _ _ ha'] at hlow' hhigh'
  have hbase : (1 : ℚ) < 2 := by norm_num
  have hle := (zpow_lt_zpow_iff_right₀ hbase).1 (lt_of_le_of_lt hlow hhigh')
  have hge := (zpow_lt_zpow_iff_right₀ hbase).1 (lt_of_le_of_lt hlow' hhigh)
  omega

theorem nearestRank_scale (num : ℕ) {den a : ℕ} (hden : 0 < den) (ha : 0 < a) :
    nearestRank (num * a) (den * a) = nearestRank num den := by
  by_cases hnum : num = 0
  · rw [hnum, zero_mul, nearestRank, nearestRank, if_pos rfl, if_pos rfl]
  · have hexponent := binaryExponent_scale (Nat.pos_of_ne_zero hnum) hden ha
    rw [nearestRank, nearestRank, if_neg hnum, if_neg (Nat.mul_ne_zero hnum ha.ne')]
    simp only [hexponent]
    rw [mul_right_comm num, mul_right_comm den, roundDiv_scale _ _ ha]

/-- Fractions of one value are rounded to one double. -/
theorem ofFraction?_congr {num den num' den' : ℕ} (hden : 0 < den) (hden' : 0 < den')
    (h : (num / den : ℚ) = num' / den') (negative : Bool) :
    ofFraction? negative num den = ofFraction? negative num' den' := by
  have hcross : num * den' = num' * den := by
    rw [div_eq_div_iff (Nat.cast_ne_zero.2 hden.ne') (Nat.cast_ne_zero.2 hden'.ne')] at h
    exact_mod_cast h
  have hrank : nearestRank num den = nearestRank num' den' :=
    calc nearestRank num den
        = nearestRank (num * den') (den * den') := (nearestRank_scale num hden hden').symm
      _ = nearestRank (num' * den) (den' * den) := by rw [hcross, mul_comm den]
      _ = nearestRank num' den' := nearestRank_scale num' hden' hden
  simp only [ofFraction?, hrank]

/-! ### Exact values -/

/-- The significand of a positive rank has at most 53 bits, and its scale is at least the smallest.
Above the smallest scale it has exactly 53. -/
theorem significandOfRank_bounds {rank : ℕ} (hrank : rank ≠ 0) :
    0 < significandOfRank rank ∧ significandOfRank rank < 2 ^ 53 ∧ -1074 ≤ scaleOfRank rank ∧
      (scaleOfRank rank = -1074 ∨ 2 ^ 52 ≤ significandOfRank rank) := by
  unfold significandOfRank scaleOfRank
  simp only [Nat.pow_eq]
  split <;> norm_num at * <;> omega

/-- Ranks are numbered through: a grid starts where the one before it ends. -/
theorem rank_eq {rank : ℕ} :
    (scaleOfRank rank + 1074).toNat * 2 ^ 52 + significandOfRank rank = rank := by
  unfold significandOfRank scaleOfRank
  simp only [Nat.pow_eq]
  split <;> omega

/-- The grid on which an exact value is rounded is the one on which its rank lies. -/
theorem grid_of_eq {num den rank : ℕ} (hnum : 0 < num) (hden : 0 < den) (hrank : rank ≠ 0)
    (h : (num / den : ℚ) = significandOfRank rank * 2 ^ scaleOfRank rank) :
    max (binaryExponent num den - 52) (-1074) = scaleOfRank rank := by
  obtain ⟨hpos, hlt, hscale, hnormal⟩ := significandOfRank_bounds hrank
  have htwo : (0 : ℚ) < 2 := by norm_num
  obtain ⟨hlow, hhigh⟩ := binaryExponent_spec hnum hden
  rw [h] at hlow hhigh
  have hupper : binaryExponent num den < 53 + scaleOfRank rank := by
    rw [← zpow_lt_zpow_iff_right₀ (by norm_num : (1 : ℚ) < 2)]
    refine lt_of_le_of_lt hlow ?_
    rw [zpow_add₀ htwo.ne']
    have hlt' : (significandOfRank rank : ℚ) < 2 ^ (53 : ℤ) := by exact_mod_cast hlt
    gcongr
  rcases hnormal with hleast | hbits
  · -- no grid is finer than the smallest scale
    omega
  · have hlower : 52 + scaleOfRank rank < binaryExponent num den + 1 := by
      rw [← zpow_lt_zpow_iff_right₀ (by norm_num : (1 : ℚ) < 2)]
      refine lt_of_le_of_lt ?_ hhigh
      rw [zpow_add₀ htwo.ne']
      have hbits' : (2 : ℚ) ^ (52 : ℤ) ≤ significandOfRank rank := by exact_mod_cast hbits
      gcongr
    omega

/-- An exact value is rounded to its own rank. -/
theorem nearestRank_of_eq {num den rank : ℕ} (hden : 0 < den) (hrank : rank ≠ 0)
    (h : (num / den : ℚ) = significandOfRank rank * 2 ^ scaleOfRank rank) :
    nearestRank num den = rank := by
  obtain ⟨hpos, -⟩ := significandOfRank_bounds hrank
  have htwo : (0 : ℚ) < 2 := by norm_num
  have hnum : num ≠ 0 := by
    rintro rfl
    have hpos' : (0 : ℚ) < significandOfRank rank := Nat.cast_pos.2 hpos
    have hvalue : (0 : ℚ) < significandOfRank rank * 2 ^ scaleOfRank rank := by positivity
    rw [← h] at hvalue
    simp at hvalue
  have hgrid := grid_of_eq (Nat.pos_of_ne_zero hnum) hden hrank h
  -- on its grid the value is the significand itself
  have hexact : num * 2 ^ (-scaleOfRank rank).toNat
      = significandOfRank rank * (den * 2 ^ (scaleOfRank rank).toNat) := by
    have hscaled : (0 : ℚ) < (den * 2 ^ (scaleOfRank rank).toNat : ℕ) := by positivity
    have hdiv := scaled_div (b := 2) (by norm_num) num den (scaleOfRank rank)
    rw [Nat.cast_ofNat, h, mul_div_cancel_right₀ _ (zpow_pos htwo _).ne', div_eq_iff hscaled.ne']
      at hdiv
    exact_mod_cast hdiv
  have hround : roundDiv (num * 2 ^ (-scaleOfRank rank).toNat) (den * 2 ^ (scaleOfRank rank).toNat)
      = significandOfRank rank := by
    rw [hexact, roundDiv_mul]
    positivity
  rw [nearestRank, if_neg hnum]
  simp only [hgrid, Nat.pow_eq, hround]
  exact rank_eq

/-- A fraction that is the magnitude of a double is rounded to the double. -/
theorem ofFraction?_of_magnitude {num den : ℕ} {x : Double} (hden : 0 < den)
    (h : (num / den : ℚ) = x.magnitude) : ofFraction? x.negative num den = some x := by
  have hrank : nearestRank num den = x.rank := by
    by_cases hzero : x.rank = 0
    · have hx : x.magnitude = 0 := by simp [magnitude, significand, significandOfRank, hzero]
      have hden' : (den : ℚ) ≠ 0 := Nat.cast_ne_zero.2 hden.ne'
      rw [hx, div_eq_zero_iff, or_iff_left hden', Nat.cast_eq_zero] at h
      rw [h, hzero]
      rfl
    · exact nearestRank_of_eq hden hzero h
  simp only [ofFraction?, hrank, dif_pos x.rank_lt]

end Double

/-! ## Numerals with exact values -/

namespace Numeral

/-- What a numeral denotes, apart from its sign. -/
def magnitude (n : Numeral) : ℚ := n.coefficient * 10 ^ n.power

end Numeral

namespace Double

/-- The magnitude of a double that is not zero lies far inside the decimal bounds. -/
theorem magnitude_bounds {x : Double} (hrank : x.rank ≠ 0) :
    (10 : ℚ) ^ (-330 : ℤ) < x.magnitude ∧ x.magnitude < (10 : ℚ) ^ (310 : ℤ) := by
  obtain ⟨hpos, hlt, hscale, -⟩ := significandOfRank_bounds hrank
  have hpos' : (1 : ℚ) ≤ significandOfRank x.rank := by exact_mod_cast hpos
  have hlt' : (significandOfRank x.rank : ℚ) < 2 ^ (53 : ℤ) := by exact_mod_cast hlt
  have hscale' : scaleOfRank x.rank ≤ 971 := by
    have hbound := x.rank_lt
    unfold rankLimit at hbound
    rw [scaleOfRank]
    simp only [Nat.pow_eq] at *
    split
    · norm_num
    · omega
  have htwo : (1 : ℚ) ≤ 2 := by norm_num
  have hsmallest : (2 : ℚ) ^ 1074 < 10 ^ 330 := by
    have hnat : 2 ^ 1074 < 10 ^ 330 := by decide +kernel
    exact_mod_cast hnat
  have hlargest : (2 : ℚ) ^ 1024 < 10 ^ 310 := by
    have hnat : 2 ^ 1024 < 10 ^ 310 := by decide +kernel
    exact_mod_cast hnat
  have hsum : (2 : ℚ) ^ (1024 : ℤ) = 2 ^ (53 : ℤ) * 2 ^ (971 : ℤ) :=
    zpow_add₀ two_ne_zero 53 971
  constructor
  · calc (10 : ℚ) ^ (-330 : ℤ) < 2 ^ (-1074 : ℤ) := by
          rw [zpow_neg, zpow_neg]
          exact inv_strictAnti₀ (by positivity) hsmallest
      _ ≤ 2 ^ scaleOfRank x.rank := zpow_le_zpow_right₀ htwo hscale
      _ ≤ significandOfRank x.rank * 2 ^ scaleOfRank x.rank :=
          le_mul_of_one_le_left (by positivity) hpos'
  · calc (significandOfRank x.rank : ℚ) * 2 ^ scaleOfRank x.rank
        < 2 ^ (53 : ℤ) * 2 ^ scaleOfRank x.rank := by gcongr
      _ ≤ 2 ^ (53 : ℤ) * 2 ^ (971 : ℤ) :=
          mul_le_mul_of_nonneg_left (zpow_le_zpow_right₀ htwo hscale') (by positivity)
      _ = 2 ^ (1024 : ℤ) := hsum.symm
      _ < 10 ^ (310 : ℤ) := hlargest

/-- The number of digits tells between which powers of ten a number lies. -/
theorem decimalLength_spec {n : ℕ} (hn : n ≠ 0) :
    (10 : ℚ) ^ ((decimalLength n : ℤ) - 1) ≤ n ∧ (n : ℚ) < 10 ^ (decimalLength n : ℤ) := by
  have hpos : 0 < decimalLength n := Nat.length_toDigits_pos
  have hupper : n < 10 ^ decimalLength n :=
    (Nat.length_toDigits_le_iff (by norm_num) hpos).1 (le_refl (decimalLength n))
  have hlower : 10 ^ (decimalLength n - 1) ≤ n := by
    by_cases hone : decimalLength n = 1
    · rw [hone]
      exact Nat.one_le_iff_ne_zero.2 hn
    · by_contra hlt
      have hle := (Nat.length_toDigits_le_iff (b := 10) (n := n) (by norm_num)
        (by omega : 0 < decimalLength n - 1)).2 (by omega)
      change decimalLength n ≤ _ at hle
      omega
  constructor
  · have hcast : ((decimalLength n : ℤ) - 1) = ((decimalLength n - 1 : ℕ) : ℤ) := by omega
    rw [hcast, zpow_natCast]
    exact_mod_cast hlower
  · rw [zpow_natCast]
    exact_mod_cast hupper

/-- The first digit of a numeral with the value of a double is not too far from the point. -/
theorem place_bounds {n : Numeral} {x : Double} (hrank : x.rank ≠ 0) (h : n.magnitude = x.magnitude)
    (hcoefficient : n.coefficient ≠ 0) :
    (decimalLength n.coefficient : ℤ) - 1 + n.power < 310 ∧
      -330 < (decimalLength n.coefficient : ℤ) + n.power := by
  have hten : (0 : ℚ) < 10 := by norm_num
  obtain ⟨hlow, hhigh⟩ := magnitude_bounds hrank
  obtain ⟨hfirst, hlast⟩ := decimalLength_spec hcoefficient
  have hpower : (0 : ℚ) < 10 ^ n.power := zpow_pos hten _
  rw [← h, Numeral.magnitude] at hlow hhigh
  constructor
  · rw [← zpow_lt_zpow_iff_right₀ (by norm_num : (1 : ℚ) < 10), zpow_add₀ hten.ne']
    refine lt_of_le_of_lt ?_ hhigh
    gcongr
  · rw [← zpow_lt_zpow_iff_right₀ (by norm_num : (1 : ℚ) < 10), zpow_add₀ hten.ne']
    refine lt_trans hlow ?_
    gcongr

/-- Only the double zero has the value zero. -/
theorem coefficient_eq_zero_iff {n : Numeral} {x : Double} (h : n.magnitude = x.magnitude) :
    n.coefficient = 0 ↔ x.rank = 0 := by
  constructor
  · intro hzero
    by_contra hrank
    obtain ⟨hlow, -⟩ := magnitude_bounds hrank
    have hpos : (0 : ℚ) < 10 ^ (-330 : ℤ) := by positivity
    rw [← h, Numeral.magnitude, hzero, Nat.cast_zero, zero_mul] at hlow
    exact absurd hlow hpos.not_gt
  · intro hrank
    have hx : x.magnitude = 0 := by
      simp [magnitude, significand, significandOfRank, hrank]
    rw [hx, Numeral.magnitude, mul_eq_zero] at h
    rcases h with h | h
    · exact_mod_cast h
    · exact absurd h (zpow_pos (by norm_num) _).ne'

/-- The nearest double to a numeral that denotes exactly a double is that double. -/
theorem nearest?_of_magnitude {n : Numeral} {x : Double} (hsign : n.negative = x.negative)
    (h : n.magnitude = x.magnitude) : n.nearest? = some x := by
  rw [Numeral.nearest?, ofDecimal?]
  by_cases hrank : x.rank = 0
  · rw [if_pos ((coefficient_eq_zero_iff h).2 hrank)]
    obtain ⟨negative, rank, hlt⟩ := x
    subst hrank
    rw [hsign]
    rfl
  · have hcoefficient : n.coefficient ≠ 0 := fun hzero => hrank ((coefficient_eq_zero_iff h).1 hzero)
    obtain ⟨hfirst, hlast⟩ := place_bounds hrank h hcoefficient
    have hden : 0 < Nat.pow 10 (-n.power).toNat := Nat.pow_pos (by norm_num)
    have hfraction : ((n.coefficient * Nat.pow 10 n.power.toNat : ℕ) : ℚ)
        / (Nat.pow 10 (-n.power).toNat : ℕ) = x.magnitude := by
      rw [← h, Numeral.magnitude, zpow_eq_div (by norm_num)]
      simp only [Nat.pow_eq]
      push_cast
      ring
    rw [if_neg hcoefficient, if_neg (by omega), if_neg (by omega), hsign]
    exact ofFraction?_of_magnitude hden hfraction

end Double

/-! ## Values of layouts -/

namespace Numeral

theorem digitsValue_append (ds es : List Char) :
    digitsValue (ds ++ es) = digitsValue ds * 10 ^ es.length + digitsValue es := by
  unfold digitsValue
  rw [Nat.ofDigitChars_append, Nat.ofDigitChars_eq_ofDigitChars_zero, mul_comm]

theorem digitsValue_zeros (n : ℕ) : digitsValue (List.replicate n '0') = 0 := by
  rw [digitsValue, Nat.ofDigitChars_replicate_zero, mul_zero]

theorem digitsValue_toDigits (n : ℕ) : digitsValue (Nat.toDigits 10 n) = n :=
  Nat.ofDigitChars_ten_toDigits

/-- The exponent of a layout is read as what it was written for. -/
theorem power_written (negative : Bool) (whole : List Char) (decimals : Option (List Char)) (first : ℤ) :
    power ⟨negative, whole, decimals, some (decide (first < 0), Nat.toDigits 10 first.natAbs)⟩
      = first - (decimals.getD []).length := by
  rw [power]
  rcases lt_or_ge first 0 with hfirst | hfirst
  · simp only [hfirst, decide_true, digitsValue_toDigits]
    omega
  · simp only [not_lt.2 hfirst, decide_false, digitsValue_toDigits]
    omega

/-- Without an exponent each digit after the point divides by ten. -/
theorem magnitude_decimals (negative : Bool) (whole decimals : List Char) :
    magnitude ⟨negative, whole, some decimals, none⟩
      = digitsValue (whole ++ decimals) * 10 ^ (-(decimals.length : ℤ)) := by
  simp only [magnitude, coefficient, power, Option.getD_some, zero_sub]

/-- Whatever the layout, the digits keep their places. -/
theorem magnitude_ofDigits (layout : Layout) (negative : Bool) {digits : List Char}
    (hne : digits ≠ []) (point : ℤ) :
    (ofDigits layout negative digits point).magnitude
      = digitsValue digits * 10 ^ (point - digits.length) := by
  rcases ofDigits_cases layout negative hne point with
    ⟨d, rest, decimals, rfl, rfl, -, h⟩ | ⟨hpoint, h⟩ | ⟨hpoint, hlt, h⟩ | ⟨hpoint, hge, h⟩ <;> rw [h]
  · -- the exponent is that of the first digit
    simp only [magnitude, power_written, coefficient, List.singleton_append, List.length_cons]
    congr 2
    push_cast
    ring
  · have hplaces : ((-point).toNat : ℤ) = -point := Int.toNat_of_nonneg (by omega)
    have hzero : digitsValue ['0'] = 0 := rfl
    have hvalue : digitsValue (['0'] ++ (List.replicate (-point).toNat '0' ++ digits))
        = digitsValue digits := by
      rw [digitsValue_append, digitsValue_append, digitsValue_zeros, hzero, zero_mul, zero_mul,
        zero_add, zero_add]
    rw [magnitude_decimals, hvalue, List.length_append, List.length_replicate]
    congr 2
    push_cast
    omega
  · rw [magnitude_decimals, List.take_append_drop, List.length_drop]
    congr 2
    omega
  · -- the zeros multiply by powers of ten, and the one after the point divides by ten again
    have hzero : digitsValue ['0'] = 0 := rfl
    have hvalue : digitsValue (digits ++ List.replicate (point.toNat - digits.length) '0' ++ ['0'])
        = digitsValue digits * 10 ^ (point.toNat - digits.length) * 10 := by
      rw [digitsValue_append, digitsValue_append, digitsValue_zeros, hzero, List.length_replicate,
        List.length_singleton, add_zero, add_zero, pow_one]
    have hplaces : point - digits.length = ((point.toNat - digits.length : ℕ) : ℤ) := by omega
    rw [magnitude_decimals, hvalue, hplaces, zpow_natCast, List.length_singleton, Nat.cast_one,
      zpow_neg_one]
    push_cast
    field_simp

end Numeral

namespace Double

/-- Laying out a decimal number keeps its value. -/
theorem magnitude_layOut (negative : Bool) (n : ℕ) (power : ℤ) :
    (layOut negative n power).magnitude = n * 10 ^ power := by
  have hten : (10 : ℚ) ≠ 0 := by norm_num
  rw [layOut]
  split
  · next hn =>
    rw [hn, Nat.cast_zero, zero_mul]
    exact zero_mul _
  · next hn =>
    obtain ⟨zeros, hdigits, ⟨hne, -⟩, -⟩ := exists_digits hn
    have hvalue : n = Numeral.digitsValue (trimZeros n) * 10 ^ zeros := by
      conv_lhs => rw [← Numeral.digitsValue_toDigits n, hdigits]
      rw [Numeral.digitsValue_append, Numeral.digitsValue_zeros, List.length_replicate, add_zero]
    have hlength : decimalLength n = (trimZeros n).length + zeros := by
      rw [decimalLength, hdigits, List.length_append, List.length_replicate]
    rw [Numeral.magnitude_ofDigits _ _ hne, hlength]
    conv_rhs => rw [hvalue]
    have hplace : ((((trimZeros n).length + zeros : ℕ) : ℤ) + power - (trimZeros n).length)
        = zeros + power := by
      push_cast
      ring
    rw [hplace, zpow_add₀ hten, zpow_natCast]
    push_cast
    ring

/-! ## Written doubles -/

theorem magnitude_exactNumeral (x : Double) : x.exactNumeral.magnitude = x.magnitude := by
  have hten : (10 : ℚ) = 5 * 2 := by norm_num
  rw [exactNumeral]
  split
  · next hscale =>
    have hpower : (10 : ℚ) ^ x.scale = (5 ^ (-x.scale).toNat)⁻¹ * 2 ^ x.scale := by
      have hnat : -x.scale = ((-x.scale).toNat : ℤ) := by omega
      rw [hten, mul_zpow, ← zpow_natCast, ← zpow_neg, ← hnat, neg_neg]
    rw [magnitude_layOut, hpower, magnitude]
    simp only [Nat.pow_eq]
    push_cast
    field_simp
  · next hscale =>
    have hnat : x.scale = (x.scale.toNat : ℤ) := by omega
    rw [magnitude_layOut, magnitude, zpow_zero, mul_one]
    conv_rhs => rw [hnat, zpow_natCast]
    simp only [Nat.pow_eq]
    push_cast
    rfl

/-- A double is the nearest one to its numeral. -/
theorem nearest?_numeral (x : Double) : x.numeral.nearest? = some x := by
  rcases x.numeral_cases with ⟨n, power, -, hnearest⟩ | ⟨hrank, hzero⟩ | hexact
  · exact hnearest
  · rw [hzero]
    apply nearest?_of_magnitude (negative_layOut _ _ _)
    rw [magnitude_layOut, Nat.cast_zero, zero_mul, magnitude, significand, hrank]
    exact (zero_mul _).symm
  · rw [hexact]
    apply nearest?_of_magnitude
    · rw [exactNumeral]
      split <;> exact negative_layOut _ _ _
    · exact magnitude_exactNumeral x

end Double

end QueryShaping
