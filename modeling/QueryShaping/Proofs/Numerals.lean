import Mathlib.Data.List.TakeWhile
import QueryShaping.Number

/-!
# Numerals that are written and scanned

A numeral that is written before something that does not continue it is found again: its digits stop
where the point, the exponent or what follows begins. This takes that there are digits wherever digits
are due, and that no digit follows a leading zero. The numerals of numbers are laid out that way.

## What this module delivers

- `Numeral.Proper`, `Numeral.Ends`: numerals that are well written, and what may follow them.
- `Numeral.scan_toChars`: a proper numeral is scanned as what it is.
- `Double.exists_digits`: the digits of a decimal number.
- `Numeral.ofDigits_cases`, `Double.proper_layOut`: the layouts of digits, and that they are proper.
- `Number.proper_numeral`: the numerals of numbers are proper.
-/

set_option autoImplicit false

namespace QueryShaping

namespace Numeral

/-! ## Scanning -/

/-- Characters that are digits, at least one. -/
def AreDigits (cs : List Char) : Prop := cs ≠ [] ∧ ∀ c ∈ cs, c.isDigit = true

/-- A text before which a run of digits ends. -/
def EndsDigits (cs : List Char) : Prop := ∀ c, cs.head? = some c → c.isDigit = false

/-- A text before which any numeral ends. -/
def Ends (cs : List Char) : Prop :=
  ∀ c, cs.head? = some c → c.isDigit = false ∧ c ≠ '.' ∧ c ≠ 'e' ∧ c ≠ 'E'

variable {ds rest : List Char}

theorem Ends.endsDigits (h : Ends rest) : EndsDigits rest := fun c hc => (h c hc).1

theorem ends_cons {c : Char} (h : c.isDigit = false ∧ c ≠ '.' ∧ c ≠ 'e' ∧ c ≠ 'E') (cs : List Char) :
    Ends (c :: cs) := by
  intro c' hc
  obtain rfl := Option.some.inj hc
  exact h

theorem spanDigits_append (hds : ∀ c ∈ ds, c.isDigit = true) (hrest : EndsDigits rest) :
    spanDigits (ds ++ rest) = (ds, rest) := by
  induction ds with
  | nil =>
    cases rest with
    | nil => rfl
    | cons c rest => simp [spanDigits, hrest c rfl]
  | cons d ds ih =>
    obtain ⟨hd, hds⟩ := List.forall_mem_cons.1 hds
    simp [spanDigits, hd, ih hds]

theorem someDigits_append (hds : AreDigits ds) (hrest : EndsDigits rest) :
    someDigits (ds ++ rest) = .ok (ds, rest) := by
  obtain ⟨hne, hall⟩ := hds
  rw [someDigits, spanDigits_append hall hrest]
  cases ds with
  | nil => exact absurd rfl hne
  | cons d ds => rfl

theorem scanWhole_append (hds : AreDigits ds) (hlead : ds.head? = some '0' → ds = ['0'])
    (hrest : EndsDigits rest) : scanWhole (ds ++ rest) = .ok (ds, rest) := by
  rw [scanWhole, someDigits_append hds hrest]
  split
  · next digits _ heq =>
    obtain ⟨rfl, -⟩ := Prod.mk.inj (Except.ok.inj heq)
    cases hlead rfl
  · rfl

theorem scanMinus_of_digits (hds : AreDigits ds) : scanMinus (ds ++ rest) = (false, ds ++ rest) := by
  obtain ⟨hne, hall⟩ := hds
  cases ds with
  | nil => exact absurd rfl hne
  | cons d ds =>
    have hminus : d ≠ '-' := by
      rintro rfl
      exact absurd (hall '-' List.mem_cons_self) (by decide)
    simp [scanMinus, hminus]

/-! ## Well written numerals -/

/-- A numeral with digits wherever digits are due, in which no digit follows a leading zero. -/
structure Proper (n : Numeral) : Prop where
  whole : AreDigits n.whole
  lead : n.whole.head? = some '0' → n.whole = ['0']
  decimals : ∀ ds, n.decimals = some ds → AreDigits ds
  exponent : ∀ negative ds, n.exponent = some (negative, ds) → AreDigits ds

/-- The characters of an exponent. -/
def exponentChars : Option (Bool × List Char) → List Char
  | none => []
  | some (false, digits) => 'e' :: '+' :: digits
  | some (true, digits) => 'e' :: '-' :: digits

/-- The characters of the digits after the point. -/
def decimalChars : Option (List Char) → List Char
  | none => []
  | some digits => '.' :: digits

theorem toChars_eq (n : Numeral) :
    n.toChars = (if n.negative then ['-'] else []) ++ n.whole ++ decimalChars n.decimals
      ++ exponentChars n.exponent := by
  obtain ⟨negative, whole, decimals, exponent⟩ := n
  rcases decimals with - | digits <;> rcases exponent with - | ⟨- | -, digits⟩ <;> rfl

theorem scanExponent_append {exponent : Option (Bool × List Char)}
    (h : ∀ negative ds, exponent = some (negative, ds) → AreDigits ds) (hrest : Ends rest) :
    scanExponent (exponentChars exponent ++ rest) = .ok (exponent, rest) := by
  cases exponent with
  | none =>
    cases rest with
    | nil => rfl
    | cons c rest =>
      obtain ⟨-, -, he, hE⟩ := hrest c rfl
      simp [exponentChars, scanExponent, he, hE]
      rfl
  | some part =>
    obtain ⟨negative, ds⟩ := part
    have hds := someDigits_append (h negative ds rfl) hrest.endsDigits
    cases negative with
    | false => simp [exponentChars, scanExponent, scanSign, hds, bind, Except.bind, pure, Except.pure]
    | true => simp [exponentChars, scanExponent, scanSign, hds, bind, Except.bind, pure, Except.pure]

/-- An exponent, or what follows it, ends the digits before it. -/
theorem endsDigits_exponentChars (exponent : Option (Bool × List Char)) (hrest : Ends rest) :
    EndsDigits (exponentChars exponent ++ rest) := by
  rcases exponent with - | ⟨- | -, ds⟩
  · exact hrest.endsDigits
  all_goals
    intro c hc
    obtain rfl : 'e' = c := Option.some.inj hc
    decide

theorem scanDecimals_append {decimals : Option (List Char)}
    (h : ∀ ds, decimals = some ds → AreDigits ds) (hrest : EndsDigits rest)
    (hpoint : rest.head? ≠ some '.') :
    scanDecimals (decimalChars decimals ++ rest) = .ok (decimals, rest) := by
  cases decimals with
  | none =>
    cases rest with
    | nil => rfl
    | cons c rest =>
      have hc : c ≠ '.' := by simpa using hpoint
      simp [decimalChars, scanDecimals, hc, pure, Except.pure]
  | some ds =>
    have hds := someDigits_append (h ds rfl) hrest
    simp [decimalChars, scanDecimals, hds, bind, Except.bind, pure, Except.pure]

theorem endsDigits_decimalChars (decimals : Option (List Char)) (hrest : EndsDigits rest) :
    EndsDigits (decimalChars decimals ++ rest) := by
  cases decimals with
  | none => exact hrest
  | some ds =>
    intro c hc
    obtain rfl : '.' = c := Option.some.inj hc
    decide

/-- A proper numeral is found before a text that does not continue it. -/
theorem scan_toChars {n : Numeral} (h : n.Proper) (hrest : Ends rest) :
    scan (n.toChars ++ rest) = .ok (n, rest) := by
  have hexponent := scanExponent_append h.exponent hrest
  have hends := endsDigits_exponentChars n.exponent hrest
  have hpoint : (exponentChars n.exponent ++ rest).head? ≠ some '.' := by
    rcases n.exponent with - | ⟨- | -, ds⟩
    · intro hc
      exact (hrest '.' hc).2.1 rfl
    all_goals simp [exponentChars]
  have hdecimals := scanDecimals_append h.decimals hends hpoint
  have hwhole := scanWhole_append h.whole h.lead (endsDigits_decimalChars n.decimals hends)
  have hminus : scanMinus (n.toChars ++ rest) =
      (n.negative, n.whole ++ (decimalChars n.decimals ++ (exponentChars n.exponent ++ rest))) := by
    rw [toChars_eq]
    cases hneg : n.negative with
    | false => simpa using scanMinus_of_digits h.whole
    | true => simp [scanMinus]
  simp only [scan, hminus, hwhole, hdecimals, hexponent, bind, Except.bind, pure, Except.pure]

end Numeral

/-! ## Digits of natural numbers -/

namespace Numeral

theorem areDigits_toDigits (n : Nat) : AreDigits (Nat.toDigits 10 n) :=
  ⟨Nat.toDigits_ne_nil, fun _ hc => Nat.isDigit_of_mem_toDigits (by decide) (by decide) hc⟩

/-- Only zero begins with a zero. -/
theorem eq_zero_of_head?_toDigits (n : Nat) (h : (Nat.toDigits 10 n).head? = some '0') : n = 0 := by
  induction n using Nat.strongRecOn with
  | ind n ih =>
    rcases Nat.lt_or_ge n 10 with hlt | hge
    · rw [Nat.toDigits_of_lt_base hlt, List.head?_cons] at h
      have hchar : Nat.digitChar n = '0' := Option.some.inj h
      have hval := Nat.toNat_digitChar_of_lt_ten hlt
      rw [hchar] at hval
      simp at hval
      omega
    · rw [Nat.toDigits_of_base_le (by decide) hge, List.head?_append] at h
      cases hhead : (Nat.toDigits 10 (n / 10)).head? with
      | none => exact absurd (List.head?_eq_none_iff.1 hhead) Nat.toDigits_ne_nil
      | some c =>
        rw [hhead, Option.some_or] at h
        have hzero := ih (n / 10) (by omega) (hhead.trans h)
        omega

theorem toDigits_of_lead {n : Nat} (h : (Nat.toDigits 10 n).head? = some '0') :
    Nat.toDigits 10 n = ['0'] := by
  rw [eq_zero_of_head?_toDigits n h, Nat.toDigits_zero]

end Numeral

namespace Double

open Numeral (AreDigits Proper)

/-- The digits of a positive number are those without trailing zeros and then zeros, and they do not
begin with a zero. -/
theorem exists_digits {n : Nat} (hn : n ≠ 0) :
    ∃ zeros, Nat.toDigits 10 n = trimZeros n ++ List.replicate zeros '0' ∧
      AreDigits (trimZeros n) ∧ (trimZeros n).head? ≠ some '0' := by
  let digits := Nat.toDigits 10 n
  have hall := (Numeral.areDigits_toDigits n).2
  have hsplit : digits = trimZeros n ++ (digits.reverse.takeWhile (· = '0')).reverse := by
    rw [trimZeros, ← List.reverse_append, List.takeWhile_append_dropWhile, List.reverse_reverse]
  have hzeros : (digits.reverse.takeWhile (· = '0')).reverse
      = List.replicate (digits.reverse.takeWhile (· = '0')).length '0' := by
    rw [List.eq_replicate_iff]
    refine ⟨List.length_reverse, fun c hc => ?_⟩
    simpa using List.mem_takeWhile_imp (List.mem_reverse.1 hc)
  rw [hzeros] at hsplit
  refine ⟨_, hsplit, ⟨fun hnil => ?_, fun c hc => hall c ?_⟩, fun hhead => ?_⟩
  · -- zeros alone would be zero
    rw [hnil, List.nil_append] at hsplit
    apply hn
    apply Numeral.eq_zero_of_head?_toDigits
    have hne : digits ≠ [] := Nat.toDigits_ne_nil
    show digits.head? = some '0'
    rw [hsplit] at hne ⊢
    rw [List.head?_replicate, if_neg fun hz => hne (by rw [hz]; rfl)]
  · show c ∈ digits
    rw [hsplit]
    exact List.mem_append_left _ hc
  · apply hn
    apply Numeral.eq_zero_of_head?_toDigits
    show digits.head? = some '0'
    rw [hsplit, List.head?_append, hhead]
    rfl

end Double

/-! ## Layouts -/

namespace Numeral

variable {digits : List Char}

theorem areDigits_append {ds es : List Char} (hds : AreDigits ds) (hes : ∀ c ∈ es, c.isDigit = true) :
    AreDigits (ds ++ es) := by
  refine ⟨by simp [hds.1], fun c hc => ?_⟩
  rcases List.mem_append.1 hc with hc | hc
  · exact hds.2 c hc
  · exact hes c hc

theorem isDigit_of_mem_zeros {n : Nat} : ∀ c ∈ List.replicate n '0', c.isDigit = true := by
  intro c hc
  rw [List.eq_of_mem_replicate hc]
  decide

/-- The four layouts: one digit before the point and an exponent, zeros before the digits, a point
among the digits, and zeros after them. -/
theorem ofDigits_cases (layout : Layout) (negative : Bool) (hne : digits ≠ []) (point : Int) :
    (∃ d rest decimals, digits = d :: rest ∧ decimals.getD [] = rest ∧ decimals ≠ some [] ∧
        ofDigits layout negative digits point = ⟨negative, [d], decimals,
          some (decide (point - 1 < 0), Nat.toDigits 10 (point - 1).natAbs)⟩) ∨
      (point ≤ 0 ∧ ofDigits layout negative digits point
        = ⟨negative, ['0'], some (List.replicate (-point).toNat '0' ++ digits), none⟩) ∨
      (0 < point ∧ point.toNat < digits.length ∧ ofDigits layout negative digits point
        = ⟨negative, digits.take point.toNat, some (digits.drop point.toNat), none⟩) ∨
      (0 < point ∧ digits.length ≤ point.toNat ∧ ofDigits layout negative digits point
        = ⟨negative, digits ++ List.replicate (point.toNat - digits.length) '0', some ['0'], none⟩) := by
  simp only [ofDigits]
  split
  · left
    match digits with
    | [] => exact absurd rfl hne
    | [d] => exact ⟨d, [], none, rfl, rfl, nofun, rfl⟩
    | d :: d' :: rest => exact ⟨d, d' :: rest, some (d' :: rest), rfl, rfl, by simp, rfl⟩
  right
  split
  · next hpoint => exact .inl ⟨hpoint, rfl⟩
  next hpoint =>
  right
  rcases Nat.lt_or_ge point.toNat digits.length with hlt | hge
  · have hempty : (digits.drop point.toNat).isEmpty = false := by simpa using hlt
    refine .inl ⟨by omega, hlt, ?_⟩
    rw [hempty, Nat.sub_eq_zero_of_le (Nat.le_of_lt hlt), List.replicate_zero, List.append_nil]
    rfl
  · have hempty : (digits.drop point.toNat).isEmpty = true := by simpa using hge
    refine .inr ⟨by omega, hge, ?_⟩
    rw [hempty, List.take_of_length_le hge]
    rfl

/-- Any layout of digits that do not begin with a zero is proper. -/
theorem proper_ofDigits (layout : Layout) (negative : Bool) (point : Int) (hdigits : AreDigits digits)
    (hlead : digits.head? ≠ some '0') : (ofDigits layout negative digits point).Proper := by
  obtain ⟨hne, hall⟩ := hdigits
  have hzero : AreDigits ['0'] := ⟨by simp, by simp⟩
  rcases ofDigits_cases layout negative hne point with
    ⟨d, rest, decimals, rfl, hrest, hsome, h⟩ | ⟨-, h⟩ | ⟨hpoint, hlt, h⟩ | ⟨-, -, h⟩ <;> rw [h]
  · obtain ⟨hd, hdecimals⟩ := List.forall_mem_cons.1 hall
    refine ⟨⟨by simp, by simpa using hd⟩, fun h => absurd h hlead, ?_, ?_⟩
    · rintro ds rfl
      obtain rfl : ds = rest := hrest
      exact ⟨fun hnil => hsome (congrArg some hnil), hdecimals⟩
    · intro negative' ds hexponent
      obtain ⟨-, rfl⟩ := Prod.mk.inj (Option.some.inj hexponent)
      exact areDigits_toDigits _
  · -- the zero before the point is the only one that leads
    refine ⟨hzero, fun _ => rfl, fun ds hds => ?_, nofun⟩
    obtain rfl := Option.some.inj hds
    refine ⟨by simp [hne], fun c hc => ?_⟩
    rcases List.mem_append.1 hc with hc | hc
    · exact isDigit_of_mem_zeros c hc
    · exact hall c hc
  · -- at least one of the digits stands before the point
    have htake : digits.take point.toNat ≠ [] := by
      intro hnil
      rcases List.take_eq_nil_iff.1 hnil with hnone | hnil
      · omega
      · exact hne hnil
    refine ⟨⟨htake, fun c hc => hall c (List.mem_of_mem_take hc)⟩, fun hhead => ?_,
      fun ds hds => ?_, nofun⟩
    · rw [List.head?_take, if_neg (by omega)] at hhead
      exact absurd hhead hlead
    · obtain rfl := Option.some.inj hds
      exact ⟨by simpa using hlt, fun c hc => hall c (List.mem_of_mem_drop hc)⟩
  · refine ⟨areDigits_append ⟨hne, hall⟩ isDigit_of_mem_zeros, fun hhead => ?_,
      fun ds hds => ?_, nofun⟩
    · cases digits with
      | nil => exact absurd rfl hne
      | cons d rest => exact absurd hhead hlead
    · obtain rfl := Option.some.inj hds
      exact hzero

end Numeral

namespace Double

theorem proper_layOut (negative : Bool) (n : Nat) (power : Int) : (layOut negative n power).Proper := by
  rw [layOut]
  split
  · have hzero : Numeral.AreDigits ['0'] := ⟨by simp, by simp⟩
    refine ⟨hzero, fun _ => rfl, fun ds hds => ?_, nofun⟩
    obtain rfl := Option.some.inj hds
    exact hzero
  · next hn =>
    obtain ⟨_, -, hdigits, hlead⟩ := exists_digits hn
    exact Numeral.proper_ofDigits _ _ _ hdigits hlead

/-- A decimal number is laid out with a point or an exponent. -/
theorem isInteger_layOut (negative : Bool) (n : Nat) (power : Int) :
    (layOut negative n power).isInteger = false := by
  rw [layOut]
  split
  · rfl
  · next hn =>
    obtain ⟨_, -, ⟨hne, -⟩, -⟩ := exists_digits hn
    rcases Numeral.ofDigits_cases Numeral.doubleLayout negative hne (decimalLength n + power) with
      ⟨d, rest, decimals, -, -, -, h⟩ | ⟨-, h⟩ | ⟨-, -, h⟩ | ⟨-, -, h⟩ <;> rw [h]
    · exact Bool.and_false _
    all_goals rfl

theorem negative_layOut (negative : Bool) (n : Nat) (power : Int) :
    (layOut negative n power).negative = negative := by
  rw [layOut]
  split
  · rfl
  · next hn =>
    obtain ⟨_, -, ⟨hne, -⟩, -⟩ := exists_digits hn
    rcases Numeral.ofDigits_cases Numeral.doubleLayout negative hne (decimalLength n + power) with
      ⟨d, rest, decimals, -, -, -, h⟩ | ⟨-, h⟩ | ⟨-, -, h⟩ | ⟨-, -, h⟩ <;> rw [h]

/-- The numeral of a double is one of those that are tried, and then the double is nearest to it, or
the exact one. -/
theorem numeral_cases (x : Double) :
    (∃ n power, x.numeral = layOut x.negative n power ∧ x.numeral.nearest? = some x) ∨
      x.rank = 0 ∧ x.numeral = layOut x.negative 0 0 ∨ x.numeral = x.exactNumeral := by
  rw [numeral]
  split
  · next hrank => exact Or.inr (Or.inl ⟨hrank, rfl⟩)
  · cases hfound : (List.range 17).findSome? fun count =>
        (x.candidates (count + 1)).find? fun n => n.nearest? = some x with
    | none => exact Or.inr (Or.inr rfl)
    | some n =>
      obtain ⟨count, -, hn⟩ := List.exists_of_findSome?_eq_some hfound
      obtain ⟨m, -, hm⟩ := List.mem_map.1 (List.mem_of_find?_eq_some hn)
      have hnearest := List.find?_some hn
      exact Or.inl ⟨m, _, hm.symm, by simpa using hnearest⟩

/-- So it is the layout of a decimal number. -/
theorem exists_layOut (x : Double) : ∃ n power, x.numeral = layOut x.negative n power := by
  rcases x.numeral_cases with ⟨n, power, hn, -⟩ | ⟨-, hn⟩ | hn
  · exact ⟨n, power, hn⟩
  · exact ⟨0, 0, hn⟩
  · rw [hn]
    rw [exactNumeral]
    split <;> exact ⟨_, _, rfl⟩

end Double

namespace Number

theorem proper_numeral (n : Number) : n.numeral.Proper := by
  cases n with
  | int n =>
    refine ⟨Numeral.areDigits_toDigits _, fun hlead => ?_, nofun, nofun⟩
    exact Numeral.toDigits_of_lead hlead
  | double x =>
    obtain ⟨m, power, hm⟩ := x.exists_layOut
    show x.numeral.Proper
    rw [hm]
    exact Double.proper_layOut x.negative m power

end Number

end QueryShaping
