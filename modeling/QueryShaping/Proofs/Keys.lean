import QueryShaping.Proofs.Determined
import QueryShaping.Proofs.Meaning
import QueryShaping.Proofs.Rejected

/-!
# Keys of several attributes

A filter can compare several attributes together with tuples of values. The same can be asked without
a key: one group for each tuple, with one comparison for each attribute. The two are built on separate
ways, the key from the columns that its names denote and the groups from conditions that each resolve
one name, and come out as the same tree but for the mark at its root.

In a row with nulls neither of them is decided by `=` alone. What both mean is nevertheless plain: some
tuple agrees with the row, where null agrees with null and with nothing else.

## What this module delivers

- `Request.byKey`, `Request.byTuples`: a key, and the same written out.
- `Resolver.group_of_tuple`: a tuple of a key is built as the group of its comparisons is.
- `Row`, `Row.Agrees`, `Row.valuation`: rows in which columns may be null, and comparisons in them.
- `Request.condition?_byKey`: the two requests build the same condition up to the mark, and in which
  rows it is true.
-/

set_option autoImplicit false

namespace QueryShaping

/-! ## Rows -/

namespace Truth

/-- Item by item: two lists of one length pass a test exactly if each pair does. -/
theorem all_zipWith_eq_yes_iff {α β : Type} (f : α → β → Truth) :
    ∀ {xs : List α} {ys : List β}, ys.length = xs.length →
      (all (List.zipWith f xs ys) = .yes ↔ List.Forall₂ (fun x y => f x y = .yes) xs ys) := by
  intro xs
  induction xs with
  | nil =>
    intro ys hlength
    obtain rfl := List.length_eq_zero_iff.1 hlength
    simp [all]
  | cons x xs ih =>
    intro ys hlength
    obtain ⟨y, ys, rfl⟩ := List.exists_cons_of_length_eq_add_one hlength
    show (f x y).and (all (List.zipWith f xs ys)) = .yes ↔ _
    rw [and_eq_yes_iff, ih (by simpa using hlength), List.forall₂_cons]

/-- Equality of two things that may be null: with null it is unknown. -/
def equality {V : Type} [DecidableEq V] : Option V → Option V → Truth
  | some a, some b => if a = b then .yes else .no
  | _, _ => .unknown

/-- Whether something is null, which is never unknown. -/
def nullity {V : Type} : Option V → Truth
  | none => .yes
  | some _ => .no

end Truth

/-- A row as far as equality goes: what its columns hold, and which of the same values the literals
of a statement stand for. Null is no value. -/
structure Row (V : Type) where
  column : Column → Option V
  literal : Literal → Option V
  literal_eq_none_iff : ∀ l, literal l = none ↔ l = .null

namespace Row

variable {V : Type} (row : Row V)

/-- A column agrees with a literal where it holds the same value, or where both are null. -/
def Agrees (c : Column) (l : Literal) : Prop := row.column c = row.literal l

variable [DecidableEq V] (v : Valuation)

instance (c : Column) (l : Literal) : Decidable (row.Agrees c l) :=
  inferInstanceAs (Decidable (row.column c = row.literal l))

/-- Comparisons of a column with a literal by `=`, and with null by `IS`, are decided by the row; about
other tests it says nothing. -/
def atom : Expr → Truth
  | .binary op left right marked =>
    match op, left, right with
    | .equal, .column c, .literal l => Truth.equality (row.column c) (row.literal l)
    | .is, .column c, .literal .null => Truth.nullity (row.column c)
    | _, _, _ => v.atom (.binary op left right marked)
  | e => v.atom e

/-- The values of the tests of a condition in a row: those that the row decides, and the given ones
of all others. -/
def valuation : Valuation where
  atom := row.atom v
  atom_mark e := by
    cases e with
    | binary op left right marked =>
      simp only [Expr.mark, atom]
      split
      · rfl
      · rfl
      · exact v.atom_mark (.binary _ _ _ marked)
    | _ => rfl

/-- The test for a value, by `=` or by `IS`, is true exactly where the column agrees with it. -/
theorem equals_eq_yes_iff (c : Column) (l : Literal) :
    (row.valuation v).equals c l = .yes ↔ row.Agrees c l := by
  by_cases hnull : l = .null
  · subst hnull
    show Truth.nullity (row.column c) = .yes ↔ row.column c = row.literal .null
    rw [(row.literal_eq_none_iff .null).2 rfl]
    cases row.column c <;> simp [Truth.nullity]
  · obtain ⟨b, hb⟩ := Option.ne_none_iff_exists'.1 (mt (row.literal_eq_none_iff l).1 hnull)
    have hequal : (row.valuation v).equals c l = Truth.equality (row.column c) (row.literal l) := by
      cases l with
      | null => exact absurd rfl hnull
      | _ => rfl
    rw [hequal, Agrees, hb]
    cases row.column c <;> simp [Truth.equality]

end Row

/-! ## A key and its tuples -/

/-- The conditions that attributes have the values of a tuple. -/
def Condition.equalities (names : List String) (values : List Literal) : List Condition :=
  List.zipWith (fun name value => ⟨.single name, .equal, .scalar value⟩) names values

namespace Request

/-- The request for the rows in which a key has the values of one of the tuples. -/
def byKey (names : List String) (tuples : List (List Literal)) : Request :=
  { empty with filter := [[⟨.composite names, .equal, .tuples tuples⟩]] }

/-- The same request without a key: a group for each tuple. -/
def byTuples (names : List String) (tuples : List (List Literal)) : Request :=
  { empty with filter := tuples.map (Condition.equalities names) }

end Request

namespace Resolver

variable {r : Resolver} {names : List String}

/-- Resolving the names of a key at once, or each in its own condition, makes no difference. -/
theorem mapM_equalities (names : List String) (values : List Literal) :
    (Condition.equalities names values).mapM r.condition
      = .ok (List.zipWith (comparison · .equal ·) (names.map r.resolve) values) := by
  rw [mapM_eq_ok_iff]
  induction names generalizing values with
  | nil => exact .nil
  | cons name names ih =>
    cases values with
    | nil => exact .nil
    | cons value values => exact .cons rfl (ih values)

theorem group_of_tuple {values : List Literal} {e : Expr}
    (h : tuple names (names.map r.resolve) values = .ok e) :
    r.group (Condition.equalities names values) = .ok e :=
  group_eq_ok_iff.2 ⟨_, mapM_equalities names values, (tuple_eq_ok_iff.1 h).2⟩

/-- A key alone is the whole filter. -/
theorem filter?_key {tuples : List (List Literal)} {e : Expr}
    (h : r.key names .equal tuples = .ok e) :
    r.filter? [[⟨.composite names, .equal, .tuples tuples⟩]] = .ok (some e) := by
  have hgroup : r.group [⟨.composite names, .equal, .tuples tuples⟩] = .ok e :=
    group_eq_ok_iff.2 ⟨[e], (mapM_eq_ok_iff _ _ _).2 (.cons h .nil), rfl⟩
  exact filter?_eq_ok_iff.2 ⟨[e], (mapM_eq_ok_iff _ _ _).2 (.cons hgroup .nil), rfl⟩

/-- The groups of the tuples are joined as the tuples are. -/
theorem filter?_tuples {tuples : List (List Literal)} {es : List Expr}
    (h : tuples.mapM (tuple names (names.map r.resolve)) = .ok es) :
    r.filter? (tuples.map (Condition.equalities names)) = .ok (Expr.any? es) := by
  refine filter?_eq_ok_iff.2 ⟨es, ?_, rfl⟩
  rw [mapM_eq_ok_iff, List.forall₂_map_left_iff]
  exact ((mapM_eq_ok_iff _ _ _).1 h).imp fun _ _ => group_of_tuple

variable {V : Type} [DecidableEq V]

/-- A key is true in a row exactly if one of its tuples agrees with the row. -/
theorem truth_of_key_eq_yes_iff {tuples : List (List Literal)} {e : Expr}
    (h : r.key names .equal tuples = .ok e) (row : Row V) (v : Valuation) :
    e.truth (row.valuation v) = .yes ↔
      ∃ values ∈ tuples,
        List.Forall₂ (fun name value => row.Agrees (r.resolve name) value) names values := by
  obtain ⟨-, -, hlengths, -⟩ := exists_key_iff.1 ⟨e, h⟩
  rw [truth_of_key r _ h, Truth.any_eq_yes_iff, List.mem_map]
  refine exists_congr fun values => and_congr_right fun hvalues => ?_
  rw [Truth.all_zipWith_eq_yes_iff _ (hlengths values hvalues)]
  simp only [Row.equals_eq_yes_iff]

end Resolver

/-! ## Requests -/

namespace Request

/-- Without a search the condition of a request is its filter. -/
theorem condition?_of_filter? {r : Resolver} {groups : List (List Condition)} {result : Option Expr}
    (h : r.filter? groups = .ok result) :
    ({ empty with filter := groups } : Request).condition? r = .ok result := by
  refine condition?_eq_ok_iff.2 ⟨result, h, ?_⟩
  cases result <;> rfl

/-- A key means what its tuples mean one by one. The request for the tuples is accepted, and the
condition that it builds, once its root is marked, is the condition of the request for the key. This is
true in a row exactly if the row agrees with some tuple in every column that a name of the key denotes,
a null with a null. -/
theorem condition?_byKey (st : Statement) {names : List String} {tuples : List (List Literal)}
    (hnames : names ≠ []) (htuples : tuples ≠ [])
    (hlengths : ∀ values ∈ tuples, values.length = names.length) :
    ∃ e, (byTuples names tuples).condition? (Resolver.ofStatement st) = .ok (some e) ∧
      (byKey names tuples).condition? (Resolver.ofStatement st) = .ok (some e.mark) ∧
      e.mark.isMarked = true ∧
      ∀ (V : Type) [DecidableEq V] (row : Row V) (v : Valuation),
        e.mark.truth (row.valuation v) = .yes ↔
          ∃ values ∈ tuples, List.Forall₂ (fun name value =>
            row.Agrees ((Resolver.ofStatement st).resolve name) value) names values := by
  obtain ⟨_, hkey⟩ := Resolver.exists_key_iff.2 ⟨rfl, hnames, hlengths, htuples⟩
  obtain ⟨-, -, es, e, hes, hany, rfl⟩ := Resolver.key_eq_ok_iff.1 hkey
  have hfilter := Resolver.filter?_tuples hes
  rw [hany] at hfilter
  obtain ⟨_, hbare⟩ := Resolver.bare_of_tuples hes hany
  exact ⟨e, condition?_of_filter? hfilter, condition?_of_filter? (Resolver.filter?_key hkey),
    hbare.isMarked_mark, fun V _ row v => Resolver.truth_of_key_eq_yes_iff hkey row v⟩

/-- A row in which the columns with a name from the list are null, and all others are equal to the
text `1`. -/
def nullsIn (nulls : List String) : Row Literal where
  column c := if c.name ∈ nulls then none else some (.text "1")
  literal l := if l = .null then none else some l
  literal_eq_none_iff l := by by_cases h : l = .null <;> simp [h]

/-- Tuples for a key of three names, with nulls. -/
def nullableTuples : List (List Literal) :=
  [[.text "1", .null, .null], [.text "1", .text "1", .null]]

/-- A key may name a column twice, once by its alias. Here `x` is `a`, so the first tuple wants `a` to
be `1` and null at once; the second one agrees with a row in which only `b` is null. -/
theorem condition?_byKey_aliased :
    ∃ e, (byTuples ["x", "a", "b"] nullableTuples).condition? (Resolver.ofStatement aliased)
          = .ok (some e) ∧
      (byKey ["x", "a", "b"] nullableTuples).condition? (Resolver.ofStatement aliased)
          = .ok (some e.mark) ∧
      e.mark.truth ((nullsIn ["b"]).valuation .nullRow) = .yes ∧
      e.mark.truth ((nullsIn ["a", "b"]).valuation .nullRow) ≠ .yes := by
  obtain ⟨e, htuples, hkey, -, htruth⟩ := @condition?_byKey aliased ["x", "a", "b"] nullableTuples
    (by decide) (by decide) (by decide)
  refine ⟨e, htuples, hkey, ?_, ?_⟩
  · rw [htruth]
    refine ⟨[.text "1", .text "1", .null], List.mem_cons_of_mem _ List.mem_cons_self, ?_⟩
    exact .cons rfl (.cons rfl (.cons rfl .nil))
  · rw [Ne, htruth]
    rintro ⟨values, hvalues, hagrees⟩
    -- both tuples want the column behind the alias to be a text
    simp only [nullableTuples, List.mem_cons, List.not_mem_nil, or_false] at hvalues
    rcases hvalues with rfl | rfl <;> cases hagrees with
    | cons hfirst _ => exact absurd hfirst (by decide)

end Request

end QueryShaping
