import QueryShaping.Proofs.Nodes
import QueryShaping.Statement.Read

/-!
# Parts of statements

Beside its conditions a statement has selected columns, entries of its order and a window, each read
from a value with the fields of one. A reader takes a value for such a part exactly if the value has
the fields, so a part can be told from its value without looking at the reader.

## What this module delivers

- `SelectItem.Fields`, `SelectItem.read_iff`: selected columns.
- `OrderEntry.Fields`, `OrderEntry.read_iff`: entries of an order.
- `Window.bound_eq_ok_iff`: the bounds of windows are the literals of unsigned words.
- `Window.Fields`, `Window.read_iff`: windows.
-/

set_option autoImplicit false

namespace QueryShaping

theorem Table.outline_separate : Table.outline.Separate := by decide

/-! ## Selected columns -/

namespace SelectItem

/-- A value has the fields of a selected column: the column, and an alias if it has one. -/
def Fields (v : Json) (item : SelectItem) : Prop :=
  outline.Fits v ∧ (∃ x, columnField.of? v = some x ∧ Column.Fields x item.column) ∧
    (aliasField.of? v).getD .null = .ofText? item.aliasName

theorem outline_separate : outline.Separate := by decide

theorem read_iff {v : Json} {item : SelectItem} :
    read .stored v.toSource = .ok item ↔ Fields v item := by
  rw [read, Record.read_stored_iff outline_separate]
  refine and_congr_right' ?_
  simp only [Placed.seq_eq_ok_iff, Placed.map_eq_ok_iff, Record.required_ofJson_iff,
    Record.defaultText_ofJson_iff, Column.read_iff]
  constructor
  · rintro ⟨_, aliasName, ⟨c, hcolumn, rfl⟩, halias, rfl⟩
    exact ⟨hcolumn, halias⟩
  · rintro ⟨hcolumn, halias⟩
    exact ⟨_, item.aliasName, ⟨item.column, hcolumn, rfl⟩, halias, rfl⟩

end SelectItem

/-! ## Entries of an order -/

namespace OrderEntry

/-- A value has the fields of an entry of the order: the column and the name of the direction. -/
def Fields (v : Json) (e : OrderEntry) : Prop :=
  outline.Fits v ∧ (∃ x, columnField.of? v = some x ∧ Column.Fields x e.column) ∧
    ∃ x, directionField.of? v = some x ∧ x.Chooses e.direction.text

theorem outline_separate : outline.Separate := by decide

theorem read_iff {v : Json} {e : OrderEntry} : read .stored v.toSource = .ok e ↔ Fields v e := by
  have hdirection {x : Json} {d : Direction} :
      Direction.read .stored x.toSource = .ok d ↔ x.Chooses d.text := by
    rw [Direction.read, Source.readChoice_named_iff (by decide)]
    refine and_iff_right ?_
    cases d <;> simp
  rw [read, Record.read_stored_iff outline_separate]
  refine and_congr_right' ?_
  simp only [Placed.seq_eq_ok_iff, Placed.map_eq_ok_iff, Record.required_ofJson_iff, Column.read_iff,
    hdirection]
  constructor
  · rintro ⟨_, d, ⟨c, hcolumn, rfl⟩, hd, rfl⟩
    exact ⟨hcolumn, hd⟩
  · rintro ⟨hcolumn, hd⟩
    exact ⟨_, e.direction, ⟨e.column, hcolumn, rfl⟩, hd, rfl⟩

end OrderEntry

/-! ## Windows -/

namespace Window

/-- Every unsigned word is a bound. -/
theorem bound_ofUInt64 (n : UInt64) : bound (Literal.ofUInt64 n) = .ok n := by
  have hword : (WideInt.ofUInt64 n).toUInt64? = some n := by
    have hval : 0 ≤ (WideInt.ofUInt64 n).val := Int.natCast_nonneg n.toNat
    rw [WideInt.toUInt64?, if_pos hval]
    exact congrArg some UInt64.ofNat_toNat
  unfold bound Literal.ofUInt64
  simp only [Number.toUInt64?, hword]

theorem ofUInt64_of_toUInt64? {i : WideInt} {n : UInt64} (h : i.toUInt64? = some n) :
    i = .ofUInt64 n := by
  obtain ⟨val, lower, upper⟩ := i
  rw [WideInt.toUInt64?] at h
  split at h
  · next hval =>
    obtain rfl := Option.some.inj h
    -- the integer is in range, so it is not cut when it becomes a word
    have hlt : val.toNat < UInt64.size := by
      show val.toNat < 18446744073709551616
      omega
    have hsame : ((UInt64.ofNat val.toNat).toNat : Int) = val := by
      rw [UInt64.toNat_ofNat_of_lt' hlt]
      exact Int.toNat_of_nonneg hval
    simp only [WideInt.ofUInt64, hsame]
  · cases h

/-- The bounds of windows are the literals of words. -/
theorem bound_eq_ok_iff {l : Literal} {n : UInt64} : bound l = .ok n ↔ l = .ofUInt64 n := by
  constructor
  · -- nothing but a number without a fraction can be a bound
    intro h
    cases l with
    | number x =>
      cases x with
      | int i =>
        cases hword : i.toUInt64? with
        | none => simp [bound, Number.toUInt64?, hword] at h
        | some w =>
          simp only [bound, Number.toUInt64?, hword, Except.ok.injEq] at h
          rw [ofUInt64_of_toUInt64? hword, h]
          rfl
      | double x => cases h
    | _ => cases h
  · rintro rfl
    exact bound_ofUInt64 n

/-- A value denotes a window: it is a list of the literals of its offset and its count. -/
def Fields (v : Json) (w : Window) : Prop :=
  ∃ x y, v = .list [x, y] ∧ Literal.Fields x (.ofUInt64 w.offset) ∧
    Literal.Fields y (.ofUInt64 w.count)

theorem outline_separate : outline.Separate := by decide

/-- A list that has both fields, and no more, is the list of their values. -/
theorem eq_pair_of_fits {items : List Json} {x y : Json} (h : outline.Fits (.list items))
    (hx : offsetField.of? (.list items) = some x) (hy : countField.of? (.list items) = some y) :
    items = [x, y] := by
  have hlength : items.length ≤ 2 := h
  cases items with
  | nil => cases hx
  | cons first rest =>
    cases rest with
    | nil => cases hy
    | cons second rest =>
      have hrest : rest.length + 2 ≤ 2 := hlength
      obtain rfl := List.length_eq_zero_iff.1 (by omega : rest.length = 0)
      obtain rfl := Option.some.inj hx
      obtain rfl := Option.some.inj hy
      rfl

/-- The offset and the count are read from a list of two literals. -/
theorem readTuple_iff {v : Json} {offset count : Literal} :
    Record.readTuple outline (fun way r => Prod.mk <$> r.required offsetField (Literal.read way)
      <*> r.required countField (Literal.read way)) .stored v.toSource = .ok (offset, count) ↔
      ∃ x y, v = .list [x, y] ∧ Literal.Fields x offset ∧ Literal.Fields y count := by
  cases v with
  | list items =>
    rw [Record.readTuple_toSource, Record.read_stored_iff outline_separate]
    simp only [Placed.seq_eq_ok_iff, Placed.map_eq_ok_iff, Record.required_ofJson_iff,
      Literal.read_iff]
    constructor
    · rintro ⟨hfits, f, _, ⟨_, ⟨x, hx, hoffset⟩, rfl⟩, ⟨y, hy, hcount⟩, heq⟩
      obtain ⟨rfl, rfl⟩ := Prod.mk.inj heq
      exact ⟨x, y, congrArg Json.list (eq_pair_of_fits hfits hx hy), hoffset, hcount⟩
    · rintro ⟨x, y, heq, hoffset, hcount⟩
      obtain rfl := Json.list.inj heq
      exact ⟨Nat.le_refl 2, _, _, ⟨_, ⟨x, rfl, hoffset⟩, rfl⟩, ⟨y, rfl, hcount⟩, rfl⟩
  | _ =>
    constructor
    · intro h
      cases h
    · rintro ⟨_, _, h, -⟩
      cases h

theorem read_iff {v : Json} {w : Window} : read .stored v.toSource = .ok w ↔ Fields v w := by
  -- the two literals are read first, and taken for words only after that
  rw [read, bind_eq_ok_iff]
  constructor
  · rintro ⟨⟨offset, count⟩, hread, h⟩
    obtain ⟨o, ho, h⟩ := bind_eq_ok_iff.1 h
    obtain ⟨c, hc, h⟩ := bind_eq_ok_iff.1 h
    obtain rfl := Except.ok.inj h
    rw [bound_eq_ok_iff] at ho hc
    obtain rfl := ho
    obtain rfl := hc
    exact readTuple_iff.1 hread
  · intro h
    refine ⟨_, readTuple_iff.2 h, ?_⟩
    show (bound (.ofUInt64 w.offset) >>= fun offset => bound (.ofUInt64 w.count) >>= fun count =>
      .ok (Window.mk offset count)) = _
    rw [bound_ofUInt64, bound_ofUInt64]
    rfl

end Window

end QueryShaping
