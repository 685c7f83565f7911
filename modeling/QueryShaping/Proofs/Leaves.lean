import QueryShaping.Proofs.Determined

/-!
# The leaves and marks of a built condition

The tests of a request stand in its condition in the order in which they were asked for: what is
neither a conjunction nor a disjunction is, from left to right, a comparison for each value that was
given, and a pattern test for each attribute that is searched. Lists are joined from the left, and a
mark stands on each key and on nothing else but a search of several attributes beside a filter.

A list of things that stand in a tree is read from each part in turn. So the lists of joined
conditions are those of the parts, one after another, and each stage follows from the stage before it.

## What this module delivers

- `Expr.leaves`, `Expr.marks`, `Expr.LeftJoined`: the tests of a condition, its marked nodes, and that
  no list was joined from the right.
- `Expr.reading_join?`, `Expr.LeftJoined.of_join?`: what joining makes of them.
- `Condition.comparisons`, `Request.comparisons`, `Request.patternTests`: the tests that a request
  asks for.
- `Resolver.leaves_of_condition`, `Resolver.roots_of_condition`, and the same for groups, filters and
  searches.
- `Request.laidOut_of_condition?`: the leaves, the shape and the marks of what a request builds.
-/

set_option autoImplicit false

namespace QueryShaping

/-! ## What is read off a tree -/

namespace Expr

/-- The tests of a condition from left to right, without their marks: all that is neither a
conjunction nor a disjunction. -/
def leaves : Expr → List Expr
  | .binary op left right _ =>
    if op = .and ∨ op = .or then left.leaves ++ right.leaves else [.binary op left right false]
  | e => [e]

/-- The marked nodes of a condition, each before those inside it. -/
def marks : Expr → List Expr
  | .binary op left right marked =>
    (if marked then [.binary op left right true] else []) ++ (left.marks ++ right.marks)
  | _ => []

/-- No conjunction has a conjunction without a mark on its right, and no disjunction a disjunction. -/
def LeftJoined : Expr → Prop
  | .binary op left right _ =>
    left.LeftJoined ∧ right.LeftJoined ∧ (op = .and ∨ op = .or → ¬ right.Bare op)
  | _ => True

theorem leaves_and (a b : Expr) : (a.and b).leaves = a.leaves ++ b.leaves := rfl

theorem leaves_or (a b : Expr) : (a.or b).leaves = a.leaves ++ b.leaves := rfl

theorem marks_compare (op : Operator) (a b : Expr) :
    (compare op a b).marks = a.marks ++ b.marks := rfl

theorem leaves_mark (e : Expr) : e.mark.leaves = e.leaves := by
  cases e <;> rfl

theorem leaves_markOr (e : Expr) : e.markOr.leaves = e.leaves := by
  rw [markOr]
  split
  · exact e.leaves_mark
  · rfl

/-- The marked nodes are marked. -/
theorem isMarked_of_mem_marks {x e : Expr} (h : x ∈ e.marks) : x.isMarked = true := by
  induction e with
  | binary op left right marked ihl ihr =>
    rcases List.mem_append.1 h with hroot | hinside
    · cases marked with
      | false => cases hroot
      | true =>
        obtain rfl := List.mem_singleton.1 hroot
        rfl
    · exact (List.mem_append.1 hinside).elim ihl ihr
  | _ => cases h

/-- A mark that is put on an operator is the first of its marks. -/
theorem Bare.marks_mark {op : Operator} {e : Expr} (h : e.Bare op) :
    e.mark.marks = e.mark :: e.marks := by
  cases e with
  | binary op' left right marked =>
    obtain rfl : marked = false := h.2
    rfl
  | _ => cases h.1

theorem not_bare_markOr {op : Operator} {e : Expr} (h : ¬ e.Bare op) : ¬ e.markOr.Bare op := by
  rw [markOr]
  split
  · exact not_bare_mark op e
  · exact h

theorem leftJoined_mark {e : Expr} : e.mark.LeftJoined ↔ e.LeftJoined := by
  cases e <;> exact Iff.rfl

theorem LeftJoined.markOr {e : Expr} (h : e.LeftJoined) : e.markOr.LeftJoined := by
  rw [Expr.markOr]
  split
  · exact leftJoined_mark.2 h
  · exact h

/-- What is read of a pair from left to right is read of a joined list in its order. -/
theorem reading_join? {β : Type} {f : Expr → Expr → Expr} {g : Expr → List β}
    (hg : ∀ a b, g (f a b) = g a ++ g b) {es : List Expr} {e : Expr} (h : join? f es = some e) :
    g e = es.flatMap g := by
  have hfold : ∀ (rest : List Expr) (a : Expr), g (rest.foldl f a) = g a ++ rest.flatMap g := by
    intro rest
    induction rest with
    | nil =>
      intro a
      exact (List.append_nil _).symm
    | cons b rest ih =>
      intro a
      rw [List.foldl_cons, ih, hg, List.flatMap_cons, List.append_assoc]
  cases es with
  | nil => cases h
  | cons a rest =>
    obtain rfl := Option.some.inj h
    exact hfold rest a

/-- A list is joined from the left if no item is such a join itself, for the items stand on the
right. -/
theorem LeftJoined.of_join? {op : Operator} {es : List Expr} {e : Expr}
    (h : join? (compare op) es = some e) (hes : ∀ x ∈ es, x.LeftJoined ∧ ¬ x.Bare op) :
    e.LeftJoined := by
  have hfold : ∀ (rest : List Expr) (a : Expr), a.LeftJoined →
      (∀ x ∈ rest, x.LeftJoined ∧ ¬ x.Bare op) → (rest.foldl (compare op) a).LeftJoined := by
    intro rest
    induction rest with
    | nil =>
      intro a ha _
      exact ha
    | cons b rest ih =>
      intro a ha hrest
      obtain ⟨⟨hb, hbare⟩, hrest⟩ := List.forall_mem_cons.1 hrest
      exact ih (compare op a b) ⟨ha, hb, fun _ => hbare⟩ hrest
  cases es with
  | nil => cases h
  | cons a rest =>
    obtain rfl := Option.some.inj h
    obtain ⟨⟨ha, -⟩, hrest⟩ := List.forall_mem_cons.1 hes
    exact hfold rest a ha hrest

/-- Several conditions that are joined are an operator without a mark. -/
theorem bare_of_join? {op : Operator} {es : List Expr} {e : Expr}
    (h : join? (compare op) es = some e) (hlength : 2 ≤ es.length) : e.Bare op := by
  have hfold : ∀ (rest : List Expr) (a : Expr), a.Bare op → (rest.foldl (compare op) a).Bare op := by
    intro rest
    induction rest with
    | nil =>
      intro a ha
      exact ha
    | cons b rest ih =>
      intro a _
      exact ih _ (bare_compare op a b)
  match es with
  | [] => cases h
  | [_] => exact absurd hlength (by simp)
  | a :: b :: rest =>
    obtain rfl := Option.some.inj h
    exact hfold rest _ (bare_compare op a b)

end Expr

/-! ## Lists of built items -/

section Built

variable {α β γ : Type} {f : α → Except Rejection Expr} {xs : List α} {es : List Expr}

/-- What is read of the built items is read of the items. -/
theorem flatMap_of_mapM_eq_ok {g : Expr → List β} {h : α → List β} (hf : xs.mapM f = .ok es)
    (hgh : ∀ x e, f x = .ok e → g e = h x) : es.flatMap g = xs.flatMap h := by
  rw [List.flatMap_def, List.flatMap_def, map_eq_map_of_mapM_eq_ok hf hgh]

/-- What corresponds item by item corresponds for the whole list. -/
theorem forall₂_of_mapM_eq_ok {R : β → γ → Prop} {g : Expr → List γ} {h : α → List β}
    (hf : xs.mapM f = .ok es) (hgh : ∀ x e, f x = .ok e → List.Forall₂ R (h x) (g e)) :
    List.Forall₂ R (xs.flatMap h) (es.flatMap g) := by
  have hall := (mapM_eq_ok_iff f xs es).1 hf
  induction hall with
  | nil => exact .nil
  | cons hx hrest ih =>
    exact List.rel_append (hgh _ _ hx) (ih ((mapM_eq_ok_iff f _ _).2 hrest))

end Built

/-! ## What is asked for -/

/-- The operator that stands between a column and a value: `IS` and `IS NOT` instead of `=` and `<>`
exactly where the value is null. -/
def Comparison.written : Comparison → Literal → Operator
  | .equal, .null => .is
  | .equal, _ => .equal
  | .notEqual, .null => .isNot
  | .notEqual, _ => .notEqual
  | .greater, _ => .greater
  | .greaterOrEqual, _ => .greaterOrEqual
  | .less, _ => .less
  | .lessOrEqual, _ => .lessOrEqual

namespace Condition

/-- The comparisons that a condition asks for: one with its value, or for each tuple in turn one with
the value of each attribute. -/
def comparisons (r : Resolver) (c : Condition) : List Expr :=
  match c.target, c.operand with
  | .single name, .scalar value =>
    [.compare (c.comparison.written value) (.column (r.resolve name)) (.literal value)]
  | .composite names, .tuples tuples =>
    tuples.flatMap fun values => (names.zip values).map fun (name, value) =>
      .compare (c.comparison.written value) (.column (r.resolve name)) (.literal value)
  | _, _ => []

/-- One attribute has one value, and several have tuples with a value for each of them. -/
def Fits (c : Condition) : Prop :=
  match c.target, c.operand with
  | .single _, .scalar _ => True
  | .composite names, .tuples tuples => ∀ values ∈ tuples, values.length = names.length
  | _, _ => False

/-- Whether a condition tests several attributes as a key. -/
def isKey (c : Condition) : Bool :=
  match c.target with
  | .single _ => false
  | .composite _ => true

end Condition

namespace Request

/-- The comparisons of the filter, group by group and condition by condition. -/
def comparisons (req : Request) (r : Resolver) : List Expr :=
  req.filter.flatMap fun conditions => conditions.flatMap (·.comparisons r)

/-- The pattern tests of the search, one for each attribute; none where the text is empty. -/
def patternTests (req : Request) (r : Resolver) : List Expr :=
  match req.searchText? with
  | some text => req.searchable.map fun name =>
      .like (.column (r.resolve name)) (.literal (.text (Pattern.containing text)))
  | none => []

/-- The keys of the filter, group by group. -/
def keys (req : Request) : List Condition :=
  req.filter.flatMap fun conditions => conditions.filter (·.isKey)

/-- Whether the search stands beside a filter and is a disjunction. -/
def marksSearch (req : Request) : Bool :=
  !req.filter.isEmpty && req.searchText?.isSome && decide (2 ≤ req.searchable.length)

end Request

/-! ## Stages -/

namespace Resolver

open QueryShaping.Expr

variable {r : Resolver} {e : Expr}

theorem comparison_eq (column : Column) (c : Comparison) (value : Literal) :
    comparison column c value
      = .compare (c.written value) (.column column) (.literal value) := by
  cases c <;> cases value <;> rfl

theorem leaves_comparison (column : Column) (c : Comparison) (value : Literal) :
    (comparison column c value).leaves = [comparison column c value] := by
  obtain ⟨hand, hor, -⟩ := operator_comparison c value.isNull
  exact if_neg (not_or.2 ⟨hand, hor⟩)

theorem zipWith_comparison (names : List String) (values : List Literal) :
    List.zipWith (comparison · .equal ·) (names.map r.resolve) values
      = (names.zip values).map fun (name, value) =>
        .compare (Comparison.equal.written value) (.column (r.resolve name)) (.literal value) := by
  rw [List.zipWith_map_left, List.zip, List.map_zipWith]
  simp only [comparison_eq]

theorem leaves_of_tuple {names : List String} {columns : List Column} {values : List Literal}
    (h : tuple names columns values = .ok e) :
    e.leaves = List.zipWith (comparison · .equal ·) columns values := by
  obtain ⟨-, hall⟩ := tuple_eq_ok_iff.1 h
  have hitems : ∀ x ∈ List.zipWith (comparison · .equal ·) columns values, x.leaves = [x] := by
    intro x hx
    obtain ⟨i, hi, rfl⟩ := List.mem_iff_getElem.1 hx
    rw [List.getElem_zipWith]
    exact leaves_comparison _ _ _
  rw [reading_join? leaves_and hall, List.flatMap_congr hitems, List.flatMap_singleton']

theorem marks_of_tuple {names : List String} {columns : List Column} {values : List Literal}
    (h : tuple names columns values = .ok e) : e.marks = [] :=
  of_tuple (P := fun e => e.marks = []) (fun _ _ _ => rfl)
    (fun a b ha hb => by rw [Expr.and, marks_compare, ha, hb, List.append_nil]) h

theorem leftJoined_of_tuple {names : List String} {columns : List Column} {values : List Literal}
    (h : tuple names columns values = .ok e) : e.LeftJoined := by
  obtain ⟨-, hall⟩ := tuple_eq_ok_iff.1 h
  apply LeftJoined.of_join? hall
  intro x hx
  obtain ⟨i, hi, rfl⟩ := List.mem_iff_getElem.1 hx
  rw [List.getElem_zipWith]
  exact ⟨⟨trivial, trivial, fun _ => nofun⟩, not_bare_comparison (.inl rfl) _ _ _⟩

/-- The root of a key: what the key becomes, marked, with the comparisons of the key as its
leaves. -/
structure IsRoot (r : Resolver) (c : Condition) (root : Expr) : Prop where
  built : r.condition c = .ok root
  marked : root.isMarked = true
  leaves : root.leaves = c.comparisons r

variable {c : Condition}

/-- What a condition asks for stands in what it becomes. -/
theorem leaves_of_condition (h : r.condition c = .ok e) : e.leaves = c.comparisons r := by
  obtain ⟨target, c, operand⟩ := c
  rcases condition_eq_ok_iff.1 h with ⟨name, value, rfl, rfl, rfl⟩ | ⟨names, tuples, rfl, rfl, hkey⟩
  · rw [leaves_comparison, comparison_eq]
    rfl
  · obtain ⟨rfl, -, es, joined, hes, hany, rfl⟩ := key_eq_ok_iff.1 hkey
    rw [leaves_mark, reading_join? leaves_or hany]
    refine flatMap_of_mapM_eq_ok hes fun values x hx => ?_
    rw [leaves_of_tuple hx, zipWith_comparison]

theorem fits_of_condition (h : r.condition c = .ok e) : c.Fits := by
  obtain ⟨target, c, operand⟩ := c
  rcases condition_eq_ok_iff.1 h with ⟨name, value, rfl, rfl, rfl⟩ | ⟨names, tuples, rfl, rfl, hkey⟩
  · trivial
  · obtain ⟨-, -, es, joined, hes, -, -⟩ := key_eq_ok_iff.1 hkey
    intro values hvalues
    obtain ⟨x, hx⟩ := (exists_mapM_eq_ok_iff _ _).1 ⟨es, hes⟩ values hvalues
    exact (tuple_eq_ok_iff.1 hx).1.trans (List.length_map _)

theorem leftJoined_of_condition (h : r.condition c = .ok e) : e.LeftJoined := by
  rcases condition_eq_ok_iff.1 h with ⟨_, _, -, -, rfl⟩ | ⟨_, _, -, -, hkey⟩
  · exact ⟨trivial, trivial, fun _ => nofun⟩
  · obtain ⟨-, -, es, joined, hes, hany, rfl⟩ := key_eq_ok_iff.1 hkey
    refine leftJoined_mark.2 (LeftJoined.of_join? hany ?_)
    exact forall_of_mapM_eq_ok (P := fun x => x.LeftJoined ∧ ¬ x.Bare .or) hes fun values x hx =>
      ⟨leftJoined_of_tuple hx, not_bare_or_of_tuple hx⟩

/-- The only mark in a condition is that of a key, at its root. -/
theorem roots_of_condition (h : r.condition c = .ok e) :
    List.Forall₂ (IsRoot r) ([c].filter (·.isKey)) e.marks := by
  have hleaves := leaves_of_condition h
  obtain ⟨target, c, operand⟩ := c
  rcases condition_eq_ok_iff.1 h with ⟨name, value, rfl, rfl, rfl⟩ | ⟨names, tuples, rfl, rfl, hkey⟩
  · exact .nil
  · obtain ⟨-, -, es, joined, hes, hany, rfl⟩ := key_eq_ok_iff.1 hkey
    obtain ⟨op, hbare⟩ := bare_of_tuples hes hany
    -- there are no marks in the tuples, so the key has only its own
    have hmarks : joined.marks = [] := by
      rw [reading_join? (marks_compare .or) hany, List.flatMap_eq_nil_iff]
      exact forall_of_mapM_eq_ok (P := fun x => x.marks = []) hes fun values x => marks_of_tuple
    rw [hbare.marks_mark, hmarks]
    exact .cons ⟨h, hbare.isMarked_mark, hleaves⟩ .nil

section Group

variable {conditions : List Condition}

theorem leaves_of_group (h : r.group conditions = .ok e) :
    e.leaves = conditions.flatMap (·.comparisons r) := by
  obtain ⟨es, hes, hall⟩ := group_eq_ok_iff.1 h
  rw [reading_join? leaves_and hall]
  exact flatMap_of_mapM_eq_ok hes fun _ _ => leaves_of_condition

theorem fits_of_group (h : r.group conditions = .ok e) : ∀ c ∈ conditions, c.Fits := by
  intro c hc
  obtain ⟨es, hes, -⟩ := group_eq_ok_iff.1 h
  obtain ⟨x, hx⟩ := (exists_mapM_eq_ok_iff _ _).1 ⟨es, hes⟩ c hc
  exact fits_of_condition hx

theorem leftJoined_of_group (h : r.group conditions = .ok e) : e.LeftJoined := by
  obtain ⟨es, hes, hall⟩ := group_eq_ok_iff.1 h
  apply LeftJoined.of_join? hall
  exact forall_of_mapM_eq_ok (P := fun x => x.LeftJoined ∧ ¬ x.Bare .and) hes fun c x hx =>
    ⟨leftJoined_of_condition hx, not_bare_of_condition (.inl rfl) hx⟩

theorem roots_of_group (h : r.group conditions = .ok e) :
    List.Forall₂ (IsRoot r) (conditions.filter (·.isKey)) e.marks := by
  obtain ⟨es, hes, hall⟩ := group_eq_ok_iff.1 h
  have hroots := forall₂_of_mapM_eq_ok (g := marks) hes fun _ _ => roots_of_condition
  rw [← reading_join? (marks_compare .and) hall] at hroots
  rwa [show conditions.filter (·.isKey) = conditions.flatMap fun c => [c].filter (·.isKey) by
    rw [← List.filter_flatMap, List.flatMap_singleton']]

end Group

section Filter

variable {groups : List (List Condition)}

theorem leaves_of_filter? (h : r.filter? groups = .ok (some e)) :
    e.leaves = groups.flatMap fun conditions => conditions.flatMap (·.comparisons r) := by
  obtain ⟨es, hes, hany⟩ := filter?_eq_ok_iff.1 h
  rw [reading_join? leaves_or hany]
  exact flatMap_of_mapM_eq_ok hes fun _ _ => leaves_of_group

theorem fits_of_filter? {result : Option Expr} (h : r.filter? groups = .ok result) :
    ∀ conditions ∈ groups, ∀ c ∈ conditions, c.Fits := by
  intro conditions hconditions
  obtain ⟨es, hes, -⟩ := filter?_eq_ok_iff.1 h
  obtain ⟨x, hx⟩ := (exists_mapM_eq_ok_iff _ _).1 ⟨es, hes⟩ conditions hconditions
  exact fits_of_group hx

theorem leftJoined_of_filter? (h : r.filter? groups = .ok (some e)) : e.LeftJoined := by
  obtain ⟨es, hes, hany⟩ := filter?_eq_ok_iff.1 h
  apply LeftJoined.of_join? hany
  exact forall_of_mapM_eq_ok (P := fun x => x.LeftJoined ∧ ¬ x.Bare .or) hes fun conditions x hx =>
    ⟨leftJoined_of_group hx, not_bare_or_of_group hx⟩

theorem roots_of_filter? (h : r.filter? groups = .ok (some e)) :
    List.Forall₂ (IsRoot r) (groups.flatMap fun conditions => conditions.filter (·.isKey))
      e.marks := by
  obtain ⟨es, hes, hany⟩ := filter?_eq_ok_iff.1 h
  rw [reading_join? (marks_compare .or) hany]
  exact forall₂_of_mapM_eq_ok hes fun _ _ => roots_of_group

end Filter

section Search

variable {searchable : List String} {text : String}

theorem leaves_of_search? (h : r.search? searchable text = some e) :
    e.leaves = searchable.map fun name => contains (r.resolve name) text := by
  have hitems : ∀ x ∈ searchable.map (fun name => contains (r.resolve name) text),
      x.leaves = [x] := by
    intro x hx
    obtain ⟨name, -, rfl⟩ := List.mem_map.1 hx
    rfl
  rw [reading_join? leaves_or h, List.flatMap_congr hitems, List.flatMap_singleton']

theorem leftJoined_of_search? (h : r.search? searchable text = some e) : e.LeftJoined := by
  apply LeftJoined.of_join? h
  intro x hx
  obtain ⟨name, -, rfl⟩ := List.mem_map.1 hx
  exact ⟨⟨trivial, trivial, fun _ => nofun⟩, nofun⟩

theorem marks_of_search? (h : r.search? searchable text = some e) : e.marks = [] := by
  rw [reading_join? (marks_compare .or) h, List.flatMap_eq_nil_iff]
  intro x hx
  obtain ⟨name, -, rfl⟩ := List.mem_map.1 hx
  rfl

/-- Beside a filter a search is marked if several attributes are searched. -/
theorem marks_markOr_of_search? (h : r.search? searchable text = some e) :
    e.markOr.marks = if 2 ≤ searchable.length then [e.markOr] else [] := by
  have hmarks := marks_of_search? h
  split
  · next hlength =>
    have hbare : e.Bare .or := bare_of_join? h (by simpa using hlength)
    rw [markOr, if_pos hbare.1, hbare.marks_mark, hmarks]
  · next hlength =>
    -- a single pattern test is no disjunction
    have hsingle := join?_of_length_le_one h (by simp; omega)
    have hlike : e.operator? ≠ some .or := by
      intro hor
      obtain ⟨name, -, rfl⟩ := List.mem_map.1 (hsingle ▸ List.mem_singleton_self e)
      cases hor
    rw [markOr, if_neg hlike, hmarks]

end Search

end Resolver

/-! ## The whole condition -/

namespace Request

open QueryShaping.Expr

variable {req : Request} {r : Resolver} {e : Expr}

/-- How the tests that a request asks for stand in a condition. -/
structure LaidOut (req : Request) (r : Resolver) (e : Expr) : Prop where
  /-- The leaves are the comparisons of the filter and then the pattern tests of the search. -/
  leaves : e.leaves = req.comparisons r ++ req.patternTests r
  /-- No value was left out for lack of an attribute, and no attribute for lack of a value. -/
  fits : ∀ conditions ∈ req.filter, ∀ c ∈ conditions, c.Fits
  leftJoined : e.LeftJoined
  /-- The marked nodes are the root of each key and, beside a filter, that of a search of several
  attributes. -/
  marks : ∃ roots search : List Expr, e.marks = roots ++ search ∧
    List.Forall₂ (Resolver.IsRoot r) req.keys roots ∧
    (req.marksSearch = false ∧ search = [] ∨
      req.marksSearch = true ∧ ∃ f root : Expr, e = f.and root ∧ search = [root] ∧
        root.isMarked = true ∧ root.leaves = req.patternTests r)
  /-- There are no foreign parts. -/
  plain : e.Plain

theorem patternTests_eq (text : String) (h : req.searchText? = some text) :
    req.patternTests r
      = req.searchable.map fun name => Resolver.contains (r.resolve name) text := by
  rw [patternTests, h]
  rfl

/-- Without a search there are no pattern tests, and nothing is marked for one. -/
theorem of_searchPart?_eq_none (h : req.searchPart? r = none) :
    req.patternTests r = [] ∧ req.marksSearch = false := by
  cases htext : req.searchText? with
  | none =>
    refine ⟨?_, ?_⟩
    · rw [patternTests, htext]
    · rw [marksSearch, htext, Option.isSome_none, Bool.and_false, Bool.false_and]
  | some text =>
    have hsearch : r.search? req.searchable text = none := by
      rwa [searchPart?, htext] at h
    have hempty := (r.search?_eq_none_iff _ _).1 hsearch
    refine ⟨?_, ?_⟩
    · rw [patternTests_eq text htext, hempty]
      rfl
    · rw [marksSearch, hempty]
      exact Bool.and_false _

theorem exists_search (h : req.searchPart? r = some e) :
    ∃ text, r.search? req.searchable text = some e ∧ e.leaves = req.patternTests r ∧
      req.marksSearch = (!req.filter.isEmpty && decide (2 ≤ req.searchable.length)) := by
  obtain ⟨text, htext, hsearch⟩ := Option.bind_eq_some_iff.1 h
  refine ⟨text, hsearch, ?_, ?_⟩
  · rw [patternTests_eq text htext]
    exact Resolver.leaves_of_search? hsearch
  · rw [marksSearch, htext, Option.isSome_some, Bool.and_true]

/-- A filter without a search. -/
theorem laidOut_filter (hfilter : r.filter? req.filter = .ok (some e))
    (hnone : req.searchPart? r = none) (hplain : e.Plain) : req.LaidOut r e := by
  obtain ⟨htests, hmarks⟩ := of_searchPart?_eq_none hnone
  refine ⟨?_, Resolver.fits_of_filter? hfilter, Resolver.leftJoined_of_filter? hfilter,
    ⟨e.marks, [], (List.append_nil _).symm, Resolver.roots_of_filter? hfilter,
      .inl ⟨hmarks, rfl⟩⟩, hplain⟩
  rw [htests, List.append_nil]
  exact Resolver.leaves_of_filter? hfilter

/-- A search without a filter. -/
theorem laidOut_search (hnone : r.filter? req.filter = .ok none)
    (hsearch : req.searchPart? r = some e) (hplain : e.Plain) : req.LaidOut r e := by
  obtain ⟨text, hbuilt, hleaves, hmarks⟩ := exists_search hsearch
  have hempty : req.filter = [] := (r.filter?_eq_none_iff hnone).1 rfl
  refine ⟨?_, Resolver.fits_of_filter? hnone, Resolver.leftJoined_of_search? hbuilt,
    ⟨[], [], Resolver.marks_of_search? hbuilt, ?_, .inl ⟨?_, rfl⟩⟩, hplain⟩
  · rw [hleaves, comparisons, hempty]
    rfl
  · rw [keys, hempty]
    exact .nil
  · rw [hmarks, hempty]
    rfl

/-- Both. The root is a conjunction, and what stands on its right is no conjunction. -/
theorem laidOut_both {f s : Expr} (hfilter : r.filter? req.filter = .ok (some f))
    (hsearch : req.searchPart? r = some s) (hplain : (f.and s.markOr).Plain) :
    req.LaidOut r (f.and s.markOr) := by
  obtain ⟨text, hbuilt, hleaves, hmarks⟩ := exists_search hsearch
  have hfirst : req.filter.isEmpty = false := by
    cases hempty : req.filter.isEmpty with
    | false => rfl
    | true => cases (r.filter?_eq_none_iff hfilter).2 (List.isEmpty_iff.1 hempty)
  have hright : ¬ s.markOr.Bare .and := not_bare_markOr <|
    of_searchPart? (P := fun e => ¬ e.Bare .and) (fun _ _ => nofun)
      (fun _ _ _ _ hor => nomatch bare_or_iff.1 hor) hsearch
  refine ⟨?_, Resolver.fits_of_filter? hfilter, ⟨Resolver.leftJoined_of_filter? hfilter,
    (Resolver.leftJoined_of_search? hbuilt).markOr, fun _ => hright⟩,
    ⟨f.marks, s.markOr.marks, rfl, Resolver.roots_of_filter? hfilter, ?_⟩, hplain⟩
  · rw [leaves_and, leaves_markOr, Resolver.leaves_of_filter? hfilter, hleaves]
    rfl
  · rw [hmarks, hfirst, Resolver.marks_markOr_of_search? hbuilt]
    by_cases hlength : 2 ≤ req.searchable.length
    · have hroot : s.markOr ∈ s.markOr.marks := by
        rw [Resolver.marks_markOr_of_search? hbuilt, if_pos hlength]
        exact List.mem_singleton_self _
      refine .inr ⟨by simpa using hlength, f, s.markOr, rfl, if_pos hlength,
        isMarked_of_mem_marks hroot, ?_⟩
      rw [leaves_markOr, hleaves]
    · exact .inl ⟨by simpa using hlength, if_neg hlength⟩

/-- What a request builds is laid out in the order of the request: its leaves are the comparisons and
pattern tests that were asked for, all joined from the left, and its marks stand on its keys and on a
search of several attributes beside a filter. -/
theorem laidOut_of_condition? (h : req.condition? r = .ok (some e)) : req.LaidOut r e := by
  have hplain := plain_of_condition? h
  rcases parts_of_condition? h with
    ⟨hfilter, hnone⟩ | ⟨hnone, hsearch⟩ | ⟨f, s, hfilter, hsearch, rfl⟩
  · exact laidOut_filter hfilter hnone hplain
  · exact laidOut_search hnone hsearch hplain
  · exact laidOut_both hfilter hsearch hplain

/-- A request with a key, a comparison with null, and a search of two attributes. -/
def keyNullSearch : Request :=
  { empty with
    filter := [
      [⟨.composite ["a", "b"], .equal, .tuples [[.text "1", .null], [.text "2", .text "3"]]⟩,
        ⟨.single "c", .notEqual, .scalar .null⟩],
      [⟨.composite ["a"], .equal, .tuples [[.null]]⟩]]
    searchable := ["a", "c"]
    search := some "x" }

/-- The request is accepted, and its condition has the tests and marks that it asks for: eight
leaves, and a mark on each of the two keys and on the search. -/
theorem laidOut_keyNullSearch :
    ∃ e, keyNullSearch.condition? (Resolver.ofStatement aliased) = .ok (some e) ∧
      keyNullSearch.LaidOut (Resolver.ofStatement aliased) e ∧ e.leaves.length = 8 ∧
        e.marks.length = 3 :=
  ⟨_, rfl, laidOut_of_condition? rfl, rfl, rfl⟩

end Request

end QueryShaping
