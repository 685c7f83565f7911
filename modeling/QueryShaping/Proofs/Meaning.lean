import QueryShaping.Proofs.Shape
import QueryShaping.Proofs.Truth

/-!
# What a shaped condition means

A request says in its own words which rows it wants: those that pass all conditions of one group of
its filter, and in which one of the searched attributes contains the text. This module states that
meaning on the request alone, without the condition that is built from it, and compares it with the
value of the condition of the shaped statement.

## What this module delivers

- `Condition.truth`, `Request.filterTruth`, `Request.searchTruth`: what a request says about a row.
- `Resolver.truth_of_condition`, `Resolver.truth_of_group`, `Resolver.truth_of_filter?`: what each
  stage of building a condition keeps of it.
- `Request.shape_truth`: in every row the condition after shaping is the conjunction of the one
  before it, the filter and the search.
-/

set_option autoImplicit false

namespace QueryShaping

/-! ## What a request says -/

namespace Valuation

variable (v : Valuation)

/-- That a column has a value: `=`, or `IS` for null. -/
def equals (column : Column) : Literal → Truth
  | .null => v.atom (.binary .is (.column column) (.literal .null) false)
  | value => v.atom (.binary .equal (.column column) (.literal value) false)

/-- That a column stands in a comparison to a value. -/
def compares (column : Column) (c : Comparison) (value : Literal) : Truth :=
  v.atom (.binary (c.operator value.isNull) (.column column) (.literal value) false)

/-- That a column matches the pattern of a text. -/
def matchesText (column : Column) (text : String) : Truth :=
  v.atom (.binary .like (.column column) (.literal (.text (Pattern.containing text))) false)

theorem compares_equal (column : Column) (value : Literal) :
    v.compares column .equal value = v.equals column value := by
  cases value with
  | null => rfl
  | number n => rfl
  | text s => rfl

/-- The row in which every column is null: tests for null are decided and all else is unknown. -/
def nullRow : Valuation where
  atom
    | .binary op _ _ _ => if op = .is then .yes else if op = .isNot then .no else .unknown
    | _ => .unknown
  atom_mark e := by cases e <;> rfl

end Valuation

/-- What a condition of a filter says. A key has one of the tuples: all its attributes have the
values of that tuple. A condition whose operand does not fit its target says nothing; no request
with one is accepted. -/
def Condition.truth (r : Resolver) (v : Valuation) (c : Condition) : Truth :=
  match c.target, c.operand with
  | .single name, .scalar value => v.compares (r.resolve name) c.comparison value
  | .composite names, .tuples tuples =>
    Truth.any (tuples.map fun values =>
      Truth.all (List.zipWith (fun name value => v.equals (r.resolve name) value) names values))
  | _, _ => .unknown

namespace Request

/-- What the filter of a request says: one of its groups passes, with all its conditions. -/
def filterTruth (req : Request) (r : Resolver) (v : Valuation) : Truth :=
  if req.filter.isEmpty then .yes
  else Truth.any (req.filter.map fun conditions => Truth.all (conditions.map (·.truth r v)))

/-- What the search of a request says: one of the searched attributes matches. -/
def searchTruth (req : Request) (r : Resolver) (v : Valuation) : Truth :=
  match req.search with
  | none => .yes
  | some text =>
    if text.isEmpty || req.searchable.isEmpty then .yes
    else Truth.any (req.searchable.map fun name => v.matchesText (r.resolve name) text)

/-- Whether a request asks for a condition at all. -/
def Restricts (req : Request) : Prop :=
  req.filter ≠ [] ∨ (∃ text, req.search = some text ∧ text ≠ "") ∧ req.searchable ≠ []

end Request

/-- The value of the condition of a statement. -/
def Statement.truth (v : Valuation) (st : Statement) : Truth := Expr.truth? v st.condition

/-! ## Filters -/

namespace Resolver

variable (r : Resolver) (v : Valuation)

/-- A comparison is an atom, so its value is the one that the row gives. -/
theorem truth_comparison (column : Column) (c : Comparison) (value : Literal) :
    (comparison column c value).truth v = v.compares column c value := by
  cases value <;> cases c <;> rfl

theorem truth_of_tuple {names : List String} {columns : List Column} {values : List Literal}
    {e : Expr} (h : tuple names columns values = .ok e) :
    e.truth v = Truth.all (List.zipWith v.equals columns values) := by
  unfold tuple at h
  -- a tuple of the wrong length is rejected, and so is an empty one
  split at h
  · cases h
  split at h
  · next e' hall =>
    obtain rfl := Except.ok.inj h
    rw [Expr.truth_all? v hall, List.map_zipWith]
    simp only [truth_comparison, Valuation.compares_equal]
  · cases h

/-- A key that is accepted is the disjunction of its tuples; the mark around it means nothing. -/
theorem truth_of_key {names : List String} {c : Comparison} {tuples : List (List Literal)}
    {e : Expr} (h : r.key names c tuples = .ok e) :
    e.truth v = Truth.any (tuples.map fun values =>
      Truth.all (List.zipWith (fun name value => v.equals (r.resolve name) value) names values)) := by
  unfold key at h
  -- other comparisons than equality and keys without attributes are rejected
  split at h
  · cases h
  split at h
  · cases h
  obtain ⟨es, hes, h⟩ := bind_eq_ok_iff.1 h
  split at h
  · next joined hany =>
    obtain rfl : joined.mark = e := Except.ok.inj h
    rw [Expr.truth_mark, Expr.truth_any? v hany]
    congr 1
    refine map_eq_map_of_mapM_eq_ok hes fun values e' he' => ?_
    rw [truth_of_tuple v he', List.zipWith_map_left]
  · cases h

theorem truth_of_condition {c : Condition} {e : Expr} (h : r.condition c = .ok e) :
    e.truth v = c.truth r v := by
  obtain ⟨target, c, operand⟩ := c
  cases target with
  | single name =>
    cases operand with
    | scalar value =>
      obtain rfl : comparison (r.resolve name) c value = e := Except.ok.inj h
      exact truth_comparison v _ c value
    | tuples tuples => cases h
  | composite names =>
    cases operand with
    | scalar value => cases h
    | tuples tuples => exact truth_of_key r v h

theorem truth_of_group {conditions : List Condition} {e : Expr} (h : r.group conditions = .ok e) :
    e.truth v = Truth.all (conditions.map (·.truth r v)) := by
  obtain ⟨es, hes, h⟩ := bind_eq_ok_iff.1 h
  split at h
  · next joined hall =>
    obtain rfl : joined = e := Except.ok.inj h
    rw [Expr.truth_all? v hall,
      map_eq_map_of_mapM_eq_ok hes fun c e' he' => truth_of_condition r v he']
  · cases h

/-- A filter becomes nothing only where it has no groups. -/
theorem filter?_eq_none_iff {groups : List (List Condition)} {result : Option Expr}
    (h : r.filter? groups = .ok result) : result = none ↔ groups = [] := by
  obtain ⟨es, hes, rfl⟩ := map_eq_ok_iff.1 h
  -- there are as many parts as groups
  have hall := (mapM_eq_ok_iff _ _ _).1 hes
  rw [Expr.any?, Expr.join?_eq_none_iff, ← List.length_eq_zero_iff, ← List.length_eq_zero_iff,
    hall.length_eq]

theorem truth_of_filter? {groups : List (List Condition)} {e : Expr}
    (h : r.filter? groups = .ok (some e)) :
    e.truth v
      = Truth.any (groups.map fun conditions => Truth.all (conditions.map (·.truth r v))) := by
  obtain ⟨es, hes, he⟩ := map_eq_ok_iff.1 h
  rw [Expr.truth_any? v he,
    map_eq_map_of_mapM_eq_ok hes fun conditions e' he' => truth_of_group r v he']

/-! ## Searches -/

theorem search?_eq_none_iff (searchable : List String) (text : String) :
    r.search? searchable text = none ↔ searchable = [] := by
  rw [search?, Expr.any?, Expr.join?_eq_none_iff, List.map_eq_nil_iff]

theorem truth_of_search? {searchable : List String} {text : String} {e : Expr}
    (h : r.search? searchable text = some e) :
    e.truth v = Truth.any (searchable.map fun name => v.matchesText (r.resolve name) text) := by
  rw [Expr.truth_any? v h, List.map_map]
  rfl

end Resolver

/-! ## Filter and search together -/

namespace Request

variable (req : Request) (r : Resolver) (v : Valuation)

theorem truth?_filter {result : Option Expr} (h : r.filter? req.filter = .ok result) :
    Expr.truth? v result = req.filterTruth r v := by
  have hnone := r.filter?_eq_none_iff h
  cases result with
  | none => simp [Expr.truth?, filterTruth, hnone.1 rfl]
  | some e =>
    have hne : req.filter ≠ [] := fun hnil => by simpa using hnone.2 hnil
    rw [Expr.truth?, r.truth_of_filter? v h, filterTruth, if_neg (by simpa using hne)]

theorem truth?_search :
    Expr.truth? v (req.searchText?.bind (r.search? req.searchable)) = req.searchTruth r v := by
  cases hs : req.search with
  | none => simp [searchText?, searchTruth, hs, Expr.truth?]
  | some text =>
    by_cases htext : text.isEmpty
    · -- an empty text is no search
      have hnone : req.searchText? = none := by simp [searchText?, hs, Option.filter, htext]
      simp [hnone, searchTruth, hs, htext, Expr.truth?]
    have hsome : req.searchText? = some text := by simp [searchText?, hs, htext]
    rw [hsome, Option.bind_some]
    cases he : r.search? req.searchable text with
    | none =>
      have hnil := (r.search?_eq_none_iff _ _).1 he
      simp [searchTruth, hs, hnil, Expr.truth?]
    | some e =>
      have hne : req.searchable ≠ [] := fun hnil => by
        rw [(r.search?_eq_none_iff _ _).2 hnil] at he
        cases he
      simp only [searchTruth, hs, htext, hne, Expr.truth?, List.isEmpty_iff, Bool.false_or,
        if_false]
      exact r.truth_of_search? v he

end Request

namespace Expr

variable (v : Valuation)

/-- Marking the search changes how the conjunction is written and not what it means. -/
theorem truth?_filterAndSearch (filter search : Option Expr) :
    truth? v (filterAndSearch filter search) = (truth? v filter).and (truth? v search) := by
  cases filter with
  | none => simp [filterAndSearch, truth?]
  | some f =>
    cases search with
    | none => simp [filterAndSearch, truth?]
    | some s =>
      show (f.and s.markOr).truth v = (f.truth v).and (s.truth v)
      rw [truth_and, markOr]
      split
      · rw [truth_mark]
      · rfl

/-- A new condition stands to the right of the existing one, and without a new one the existing one
stays. -/
theorem truth?_merge (existing new : Option Expr) :
    truth? v ((new.map (merge existing)).or existing) = (truth? v existing).and (truth? v new) := by
  cases new with
  | none => simp [truth?]
  | some n =>
    cases existing with
    | none => simp [truth?, merge]
    | some e => rfl

end Expr

/-! ## Shaping -/

namespace Request

variable {req : Request}

/-- What an accepted request builds: nothing, unless it restricts. -/
theorem condition?_eq_none_iff {r : Resolver} {result : Option Expr}
    (h : req.condition? r = .ok result) : result = none ↔ ¬ req.Restricts := by
  obtain ⟨filter, hfilter, h⟩ := bind_eq_ok_iff.1 h
  obtain rfl := Except.ok.inj h
  have hf := r.filter?_eq_none_iff hfilter
  have hs : req.searchText?.bind (r.search? req.searchable) = none ↔
      ¬ ((∃ text, req.search = some text ∧ text ≠ "") ∧ req.searchable ≠ []) := by
    cases hsearch : req.search with
    | none => simp [searchText?, hsearch]
    | some text =>
      by_cases htext : text = ""
      · simp [searchText?, hsearch, Option.filter, htext]
      · simp [searchText?, hsearch, Option.filter, htext, r.search?_eq_none_iff]
  -- what the two parts are no longer matters, only which of them are there
  generalize req.searchText?.bind (r.search? req.searchable) = search at hs ⊢
  cases filter <;> cases search <;> simp_all [Expr.filterAndSearch, Restricts]

/-- Shaping keeps a row exactly where the condition of the statement, the filter and the search do,
with one of the three values in every row. A request that asks for neither filter nor search leaves
the condition as it is, and no request brings a row back that the statement excluded. -/
theorem shape_truth (v : Valuation) {st st' : Statement} (h : req.shape st = .ok st') :
    st'.truth v = (st.truth v).and
        ((req.filterTruth (Resolver.ofStatement st) v).and
          (req.searchTruth (Resolver.ofStatement st) v))
      ∧ (st'.condition = none ↔ st.condition = none ∧ ¬ req.Restricts)
      ∧ (¬ req.Restricts → st'.condition = st.condition)
      ∧ (st'.truth v = .yes → st.truth v = .yes) := by
  obtain ⟨p, hp, rfl⟩ := shape_eq_ok_iff.1 h
  obtain ⟨-, -, -, hc⟩ := patch_eq_ok_iff.1 hp
  have hnone := condition?_eq_none_iff hc
  have hvalue : (p.apply st).truth v = (st.truth v).and
      ((req.filterTruth (Resolver.ofStatement st) v).and
        (req.searchTruth (Resolver.ofStatement st) v)) := by
    -- the two places where conditions are merged are conjunctions both
    obtain ⟨filter, hfilter, hcond⟩ := bind_eq_ok_iff.1 hc
    show Expr.truth? v ((p.condition.map (Expr.merge st.condition)).or st.condition) = _
    rw [Expr.truth?_merge, ← Except.ok.inj hcond, Expr.truth?_filterAndSearch,
      truth?_filter req _ v hfilter, truth?_search req _ v]
    rfl
  refine ⟨hvalue, ?_, ?_, ?_⟩
  · rw [← hnone]
    show (p.condition.map (Expr.merge st.condition)).or st.condition = none ↔ _
    cases p.condition <;> simp
  · intro hfree
    show (p.condition.map (Expr.merge st.condition)).or st.condition = _
    rw [hnone.2 hfree]
    rfl
  · intro hyes
    rw [hvalue] at hyes
    exact Truth.left_of_and_eq_yes hyes

/-- A filter of two groups, one with a key that may be null, and a search of two attributes. -/
def nullableKey : Request :=
  { empty with
    filter := [
      [⟨.composite ["a", "b"], .equal, .tuples [[.text "x", .null], [.null, .null]]⟩],
      [⟨.single "a", .equal, .scalar (.text "x")⟩, ⟨.single "b", .notEqual, .scalar .null⟩]]
    searchable := ["a", "b"]
    search := some "50%" }

/-- In a row of nulls a statement that wants a null keeps the row, the filter passes through its key,
and the search is unknown. -/
theorem shape_truth_nullRow :
    ∃ st', nullableKey.shape
        { Statement.ofTable (.named "t" none) with
          condition := some (.compare .is (.column ⟨some "t", "c"⟩) (.literal .null)) } = .ok st'
      ∧ st'.truth .nullRow = Truth.yes.and (Truth.yes.and .unknown)
      ∧ st'.condition ≠ none := by
  refine ⟨_, rfl, (@shape_truth nullableKey .nullRow _ _ rfl).1.trans rfl, fun h => ?_⟩
  have hnone := ((@shape_truth nullableKey .nullRow _ _ rfl).2.1.1 h).1
  cases hnone

end Request

end QueryShaping
