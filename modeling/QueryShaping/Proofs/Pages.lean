import QueryShaping.Proofs.Direct
import QueryShaping.Proofs.Rendered
import QueryShaping.Proofs.Restored

/-!
# Pages

A page of a size is a window: the rows after those of the pages before it. The bounds of a window are
words of 64 bits, and pages are given by words of 32 bits, which leaves room for the last page of the
largest size, so nothing is cut. The row `r` is then on page `r / size + 1` and on no other, which is all
there is to know about where pages begin and end.

In a statement a window is written as two literals of numbers. Every window is read back as it was
written, and two literals that are no natural numbers of 64 bits are no window.

## What this module delivers

- `Window.Shows`, `Window.OnPage`: the rows of a window, and of a page.
- `Window.ofPage?_page`: the bounds of a page, as natural numbers.
- `Window.onPage_iff`: the page of a row.
- `Literal.natural?`, `Window.bound_eq_ok_iff_natural`: the literals that are bounds.
- `Window.read_pair_iff`: which lists of two are read as a window, and as which.
- `Window.pages_tile`: pages tile the rows, and windows are read as they are written.
-/

set_option autoImplicit false

namespace QueryShaping

/-! ## The rows of a page -/

/-- The first page, and the page size of a single row. -/
def Positive.one : Positive := ⟨1, by decide⟩

/-- The largest page and the largest page size. -/
def Positive.largest : Positive := ⟨4294967295, by decide⟩

theorem Positive.toNat_pos (n : Positive) : 0 < n.val.toNat := by
  rw [Nat.pos_iff_ne_zero]
  intro hzero
  exact n.ne_zero (UInt32.toNat_inj.1 hzero)

namespace Window

/-- A window shows the rows, counted from zero, that follow those which are skipped. -/
def Shows (w : Window) (row : Nat) : Prop :=
  w.offset.toNat ≤ row ∧ row < w.offset.toNat + w.count.toNat

/-- The row is on the page of the size. -/
def OnPage (size page : Positive) (row : Nat) : Prop :=
  ∃ w, ofPage? (some size) (some page) = some w ∧ w.Shows row

/-- What the largest page of the largest size skips, and what it shows, is less than `2 ^ 64`. -/
theorem pageEnd_lt (size page : UInt32) :
    size.toNat * (page.toNat - 1) + size.toNat < 2 ^ 64 := by
  have hsize := size.toNat_lt
  have hpage := page.toNat_lt
  have hskipped : size.toNat * (page.toNat - 1) ≤ (2 ^ 32 - 1) * (2 ^ 32 - 2) :=
    Nat.mul_le_mul (by omega) (by omega)
  omega

/-- A page skips as many rows as the pages before it show. Nothing is cut to 64 bits in this. -/
theorem ofPage?_page (size page : Positive) :
    ∃ w, ofPage? (some size) (some page) = some w ∧
      w.offset.toNat = size.val.toNat * (page.val.toNat - 1) ∧ w.count.toNat = size.val.toNat ∧
      (w.offset + w.count).toNat = w.offset.toNat + w.count.toNat := by
  have hend := pageEnd_lt size.val page.val
  have hbefore : (page.val - 1).toUInt64.toNat = page.val.toNat - 1 := by
    rw [UInt32.toNat_toUInt64]
    exact UInt32.toNat_sub_of_le _ _ (UInt32.le_iff_toNat_le.2 page.toNat_pos)
  have hoffset : (size.val.toUInt64 * (page.val - 1).toUInt64).toNat
      = size.val.toNat * (page.val.toNat - 1) := by
    rw [UInt64.toNat_mul, hbefore, UInt32.toNat_toUInt64]
    exact Nat.mod_eq_of_lt (by omega)
  refine ⟨_, rfl, hoffset, UInt32.toNat_toUInt64 _, ?_⟩
  rw [UInt64.toNat_add, hoffset, UInt32.toNat_toUInt64]
  exact Nat.mod_eq_of_lt hend

/-- A row is on the page that division says. -/
theorem onPage_iff {size page : Positive} {row : Nat} :
    OnPage size page row ↔ row / size.val.toNat + 1 = page.val.toNat := by
  obtain ⟨w, hw, hoffset, hcount, -⟩ := ofPage?_page size page
  have hpage := page.toNat_pos
  have hshows : OnPage size page row ↔ size.val.toNat * (page.val.toNat - 1) ≤ row ∧
      row < size.val.toNat * (page.val.toNat - 1) + size.val.toNat := by
    simp only [OnPage, hw, Option.some.injEq, exists_eq_left', Shows, hoffset, hcount]
  rw [hshows, ← Nat.mul_succ, Nat.mul_comm, Nat.mul_comm _ (Nat.succ _),
    ← Nat.le_div_iff_mul_le size.toNat_pos, ← Nat.div_lt_iff_lt_mul size.toNat_pos]
  omega

/-- Each row before the end of the last page is on one page only. -/
theorem existsUnique_onPage {size : Positive} {row : Nat}
    (h : row < size.val.toNat * (2 ^ 32 - 1)) : ∃! page, OnPage size page row := by
  have hpage : row / size.val.toNat + 1 < 2 ^ 32 := by
    have := (Nat.div_lt_iff_lt_mul size.toNat_pos).2 (Nat.mul_comm _ _ ▸ h)
    omega
  have hval : (UInt32.ofNat (row / size.val.toNat + 1)).toNat = row / size.val.toNat + 1 :=
    UInt32.toNat_ofNat_of_lt' hpage
  have hne : UInt32.ofNat (row / size.val.toNat + 1) ≠ 0 := by
    intro hzero
    rw [hzero] at hval
    cases hval
  refine ⟨⟨_, hne⟩, onPage_iff.2 hval.symm, fun page hon => ?_⟩
  obtain ⟨val, hne'⟩ := page
  have hsame : val = UInt32.ofNat (row / size.val.toNat + 1) :=
    UInt32.toNat_inj.1 ((onPage_iff.1 hon).symm.trans hval.symm)
  subst hsame
  rfl

/-- The rows of a page stand before those of the pages that follow. -/
theorem row_lt_of_page_lt {size page page' : Positive} {row row' : Nat} (h : page.val < page'.val)
    (hrow : OnPage size page row) (hrow' : OnPage size page' row') : row < row' := by
  rw [onPage_iff] at hrow hrow'
  have hlt : page.val.toNat < page'.val.toNat := UInt32.lt_iff_toNat_lt.1 h
  by_contra hle
  have := Nat.div_le_div_right (c := size.val.toNat) (Nat.not_lt.1 hle)
  omega

end Window

/-! ## Windows in statements -/

/-- The natural number of 64 bits that a literal is. Numbers that are out of range of 64 bits, and
those with a fraction or an exponent, are doubles. -/
def Literal.natural? : Literal → Option Nat
  | .number (.int n) => if 0 ≤ n.val then some n.val.toNat else none
  | _ => none

/-- The literal of a number that is no natural number. -/
def Literal.minusOne : Literal := .number (.int ⟨-1, by decide, by decide⟩)

namespace Window

theorem natural?_ofUInt64 (n : UInt64) : (Literal.ofUInt64 n).natural? = some n.toNat := by
  simp [Literal.ofUInt64, Literal.natural?, WideInt.ofUInt64]

/-- The bounds of windows are the natural numbers. -/
theorem bound_eq_ok_iff_natural {l : Literal} {n : UInt64} :
    bound l = .ok n ↔ l.natural? = some n.toNat := by
  rw [bound_eq_ok_iff]
  constructor
  · rintro rfl
    exact natural?_ofUInt64 n
  · intro h
    match l, h with
    | .number (.int i), h =>
      rw [Literal.natural?] at h
      split at h
      · next hval =>
        have hsame : i.val = n.toNat := by
          rw [← Option.some.inj h]
          exact (Int.toNat_of_nonneg hval).symm
        obtain ⟨val, lower, upper⟩ := i
        subst hsame
        rfl
      · cases h

/-- The two fields of a list of two values are the values, and nothing follows them. -/
theorem readTuple_pair_iff {way : Reading} {x y : Source} {offset count : Literal} :
    Record.readTuple outline (fun way r => Prod.mk <$> r.required offsetField (Literal.read way)
      <*> r.required countField (Literal.read way)) way (.list [x, y] .closed)
        = .ok (offset, count) ↔
      ∃ inner, way.enter = .ok inner ∧ Literal.read inner x = .ok offset ∧
        Literal.read inner y = .ok count := by
  show (way.enter >>= fun _ => _) = _ ↔ _
  rw [bind_eq_ok_iff]
  refine exists_congr fun inner => and_congr_right fun _ => ?_
  have hframe : Record.readItems outline inner [x, y] .closed = .ok () := by
    cases inner <;> rfl
  rw [Record.frame_eq_ok_iff, and_iff_right hframe, Placed.seq_eq_ok_iff]
  simp only [Placed.map_eq_ok_iff, Record.required_eq_ok_iff]
  constructor
  · rintro ⟨_, _, ⟨_, ⟨_, _, hx, hoffset⟩, rfl⟩, ⟨_, _, hy, hcount⟩, heq⟩
    obtain ⟨rfl, rfl⟩ := Prod.mk.inj heq
    cases hx
    cases hy
    exact ⟨hoffset, hcount⟩
  · rintro ⟨hoffset, hcount⟩
    exact ⟨_, _, ⟨_, ⟨0, x, rfl, hoffset⟩, rfl⟩, ⟨1, y, rfl, hcount⟩, rfl⟩

/-- A list of two values is read as a window exactly if both are read as natural numbers. -/
theorem read_pair_iff {way : Reading} {x y : Source} {w : Window} :
    read way (.list [x, y] .closed) = .ok w ↔
      ∃ inner l m, way.enter = .ok inner ∧ Literal.read inner x = .ok l ∧
        Literal.read inner y = .ok m ∧ l.natural? = some w.offset.toNat ∧
        m.natural? = some w.count.toNat := by
  rw [read, bind_eq_ok_iff]
  constructor
  · rintro ⟨⟨l, m⟩, hread, h⟩
    obtain ⟨inner, henter, hl, hm⟩ := readTuple_pair_iff.1 hread
    obtain ⟨offset, hoffset, h⟩ := bind_eq_ok_iff.1 h
    obtain ⟨count, hcount, h⟩ := bind_eq_ok_iff.1 h
    obtain rfl : Window.mk offset count = w := Except.ok.inj h
    exact ⟨inner, l, m, henter, hl, hm, bound_eq_ok_iff_natural.1 hoffset,
      bound_eq_ok_iff_natural.1 hcount⟩
  · rintro ⟨inner, l, m, henter, hl, hm, hoffset, hcount⟩
    refine ⟨(l, m), readTuple_pair_iff.2 ⟨inner, henter, hl, hm⟩, ?_⟩
    show (bound l >>= fun offset => bound m >>= fun count => .ok (Window.mk offset count)) = _
    rw [bound_eq_ok_iff_natural.2 hoffset, bound_eq_ok_iff_natural.2 hcount]
    rfl

/-- A window is read as it was written, wherever there is room for it. -/
theorem read_toJson_of_hasRoom (w : Window) {way : Reading} (hroom : way.HasRoom w.toJson) :
    read way w.toJson.toSource = .ok w :=
  steady_read ⟨w.distinct_toJson, w.distinct_toJson, rfl⟩ (Reading.hasRoom_stored _) hroom w
    w.read_toJson

/-- There are no doubles in a window. -/
theorem readsBack_toJson (w : Window) : w.toJson.ReadsBack := List.forall_mem_nil _

/-- A text of a window is read as the window. -/
theorem readString_of_ofChars (w : Window) {s : String}
    (h : Source.ofChars s.toList = (w.toJson.toSource, false)) : readString read s = .ok w := by
  have hroom : Reading.whole.HasRoom w.toJson := by
    show w.toJson.depth ≤ 127
    rw [w.depth_toJson]
    decide
  rw [readString, readChars, h]
  show (read .whole w.toJson.toSource >>= fun a => _) = _
  rw [read_toJson_of_hasRoom w hroom]
  rfl

/-- The pages of a size tile the rows. Page `p` skips the rows of `p - 1` pages and shows as many as the
size says, and neither these bounds nor their sum are cut to 64 bits; without a number the first page
is meant. Each row before the end of the last page is on exactly one page, and pages follow each other
as their numbers do.

A window is written as two literals, from which it is read again, directly or from its text. No two
values are read as a window but literals of natural numbers below `2 ^ 64`, and they only as the window
with these bounds. -/
theorem pages_tile (size : Positive) :
    (∀ page : Positive, ∃ w, ofPage? (some size) (some page) = some w ∧
      w.offset.toNat = size.val.toNat * (page.val.toNat - 1) ∧ w.count.toNat = size.val.toNat ∧
      (w.offset + w.count).toNat = w.offset.toNat + w.count.toNat) ∧
    ofPage? (some size) none = ofPage? (some size) (some .one) ∧
    (∀ row < size.val.toNat * (2 ^ 32 - 1), ∃! page, OnPage size page row) ∧
    (∀ (page page' : Positive) (row row' : Nat), page.val < page'.val → OnPage size page row →
      OnPage size page' row' → row < row') ∧
    (∀ w : Window, (∀ way : Reading, way.HasRoom w.toJson → read way w.toJson.toSource = .ok w) ∧
      readString read w.toJson.compact = .ok w ∧ readString read w.toJson.pretty = .ok w) ∧
    ∀ (way : Reading) (x y : Source) (w : Window), read way (.list [x, y] .closed) = .ok w ↔
      ∃ inner l m, way.enter = .ok inner ∧ Literal.read inner x = .ok l ∧
        Literal.read inner y = .ok m ∧ l.natural? = some w.offset.toNat ∧
        m.natural? = some w.count.toNat := by
  refine ⟨ofPage?_page size, ?_, fun row => existsUnique_onPage, ?_, fun w => ⟨?_, ?_, ?_⟩, ?_⟩
  · -- no row stands before the first page, however large the pages are
    have hzero : size.val.toUInt64 * (Positive.one.val - 1).toUInt64 = size.val.toUInt64 * 0 := rfl
    simp only [ofPage?, Option.map_some, hzero]
  · exact fun page page' row row' => row_lt_of_page_lt
  · exact fun way => read_toJson_of_hasRoom w
  · exact readString_of_ofChars w (Source.ofChars_compact w.readsBack_toJson)
  · exact readString_of_ofChars w (Source.ofChars_pretty w.readsBack_toJson)
  · exact fun way x y w => read_pair_iff

/-- The largest page of the largest size ends below `2 ^ 64`, and its last row is on no other. A list
of `-1` and of a text is no window. -/
theorem pages_tile_largest :
    (∃ w, ofPage? (some .largest) (some .largest) = some w ∧
      w.offset.toNat = 18446744060824649730 ∧
      (w.offset + w.count).toNat = 18446744065119617025) ∧
    (∃! page, OnPage .largest page 18446744065119617024) ∧
    ∀ w, read .stored (.list [Literal.minusOne.toJson.toSource, (Literal.text "5").toJson.toSource]
      .closed) ≠ .ok w := by
  obtain ⟨hpages, -, htile, -, -, hread⟩ := pages_tile .largest
  refine ⟨?_, htile _ (by decide), fun w h => ?_⟩
  · obtain ⟨w, hw, hoffset, hcount, hend⟩ := hpages .largest
    rw [hoffset, hcount] at hend
    exact ⟨w, hw, hoffset, hend⟩
  · obtain ⟨inner, l, m, henter, hl, -, hnatural, -⟩ := (hread _ _ _ w).1 h
    cases henter
    obtain rfl : Literal.minusOne = l :=
      Except.ok.inj ((Literal.read_iff.2 Literal.minusOne.fields_toJson).symm.trans hl)
    cases hnatural

end Window

end QueryShaping
