import QueryShaping.Proofs.Success
import QueryShaping.Shaping.Filter

/-!
# The stages of building a condition

A condition is built in stages: comparisons are joined to tuples, tuples to keys, conditions to groups
and groups to a filter. This module says once, for each stage, when it succeeds and what comes out, so
that facts about built conditions follow from facts about joined lists.

## What this module delivers

- `Expr.of_join?`: what holds of the conditions of a list and is kept by joining holds of the joined
  condition.
- `Resolver.tuple_eq_ok_iff`, `Resolver.key_eq_ok_iff`, `Resolver.condition_eq_ok_iff`,
  `Resolver.group_eq_ok_iff`, `Resolver.filter?_eq_ok_iff`, `Request.condition?_eq_ok_iff`: the stages.
- `Request.parts_of_condition?`: a request builds its filter, its search, or both.
- `Expr.Hereditary`: what tests have and joining and marking keep, every built condition has; so
  `Expr.plain_of_condition?`, that it has no foreign parts.
- `Expr.Bare`: a binary operator without a mark.
-/

set_option autoImplicit false

namespace QueryShaping

/-! ## Joined lists -/

namespace Expr

variable {f : Expr → Expr → Expr} {es : List Expr} {e : Expr}

theorem of_join? {P : Expr → Prop} (hf : ∀ a b, P a → P b → P (f a b)) (h : join? f es = some e)
    (hes : ∀ x ∈ es, P x) : P e := by
  -- what has been joined so far is any condition that has the property
  have hfold : ∀ (rest : List Expr) (a : Expr), P a → (∀ x ∈ rest, P x) → P (rest.foldl f a) := by
    intro rest
    induction rest with
    | nil =>
      intro a ha _
      exact ha
    | cons b rest ih =>
      intro a ha hrest
      obtain ⟨hb, hrest⟩ := List.forall_mem_cons.1 hrest
      exact ih (f a b) (hf a b ha hb) hrest
  cases es with
  | nil => cases h
  | cons a rest =>
    obtain rfl := Option.some.inj h
    obtain ⟨ha, hrest⟩ := List.forall_mem_cons.1 hes
    exact hfold rest a ha hrest

/-- Only a list of several conditions needs joining. -/
theorem join?_of_length_le_one (h : join? f es = some e) (hlength : es.length ≤ 1) : es = [e] := by
  match es with
  | [] => cases h
  | [a] =>
    obtain rfl : a = e := Option.some.inj h
    rfl
  | _ :: _ :: _ => simp at hlength

end Expr

/-! ## Stages -/

namespace Resolver

variable {r : Resolver} {e : Expr}

theorem tuple_eq_ok_iff {names : List String} {columns : List Column} {values : List Literal} :
    tuple names columns values = .ok e ↔
      values.length = columns.length ∧
        Expr.all? (List.zipWith (comparison · .equal ·) columns values) = some e := by
  unfold tuple
  by_cases hlength : values.length = columns.length
  · rw [if_neg (not_not.2 hlength)]
    cases Expr.all? (List.zipWith (comparison · .equal ·) columns values) <;> simp [hlength]
  · rw [if_pos hlength]
    simp [hlength]

theorem key_eq_ok_iff {names : List String} {c : Comparison} {tuples : List (List Literal)} :
    r.key names c tuples = .ok e ↔
      c = .equal ∧ names ≠ [] ∧
        ∃ es joined, tuples.mapM (tuple names (names.map r.resolve)) = .ok es ∧
          Expr.any? es = some joined ∧ joined.mark = e := by
  unfold key
  by_cases hc : c = .equal
  · rw [if_neg (not_not.2 hc)]
    by_cases hnames : names = []
    · simp [hnames]
    · rw [if_neg (by simpa using hnames), bind_eq_ok_iff]
      simp only [hc, hnames, ne_eq, not_false_eq_true, true_and]
      refine exists_congr fun es => ?_
      cases hany : Expr.any? es <;> simp [pure, Except.pure]
  · rw [if_pos hc]
    simp [hc]

/-- A condition on one attribute is a comparison, and one on several a key. -/
theorem condition_eq_ok_iff {c : Condition} :
    r.condition c = .ok e ↔
      (∃ name value, c.target = .single name ∧ c.operand = .scalar value ∧
          comparison (r.resolve name) c.comparison value = e) ∨
        ∃ names tuples, c.target = .composite names ∧ c.operand = .tuples tuples ∧
          r.key names c.comparison tuples = .ok e := by
  obtain ⟨target, c, operand⟩ := c
  cases target with
  | single name => cases operand <;> simp [condition]
  | composite names => cases operand <;> simp [condition]

theorem group_eq_ok_iff {conditions : List Condition} :
    r.group conditions = .ok e ↔
      ∃ es, conditions.mapM r.condition = .ok es ∧ Expr.all? es = some e := by
  unfold group
  rw [bind_eq_ok_iff]
  refine exists_congr fun es => and_congr_right fun _ => ?_
  cases Expr.all? es <;> simp [pure, Except.pure]

theorem filter?_eq_ok_iff {groups : List (List Condition)} {result : Option Expr} :
    r.filter? groups = .ok result ↔
      ∃ es, groups.mapM r.group = .ok es ∧ Expr.any? es = result :=
  map_eq_ok_iff

end Resolver

/-- What the search of a request becomes. -/
def Request.searchPart? (req : Request) (r : Resolver) : Option Expr :=
  req.searchText?.bind (r.search? req.searchable)

theorem Request.condition?_eq_ok_iff {req : Request} {r : Resolver} {result : Option Expr} :
    req.condition? r = .ok result ↔
      ∃ filter, r.filter? req.filter = .ok filter ∧
        Expr.filterAndSearch filter (req.searchPart? r) = result := by
  unfold Request.condition?
  rw [bind_eq_ok_iff]
  refine exists_congr fun filter => and_congr_right fun _ => ?_
  exact ⟨fun h => Except.ok.inj h, fun h => congrArg Except.ok h⟩

/-- What a request builds is its filter alone, its search alone, or the conjunction of both. -/
theorem Request.parts_of_condition? {req : Request} {r : Resolver} {e : Expr}
    (h : req.condition? r = .ok (some e)) :
    (r.filter? req.filter = .ok (some e) ∧ req.searchPart? r = none) ∨
      (r.filter? req.filter = .ok none ∧ req.searchPart? r = some e) ∨
      ∃ f s, r.filter? req.filter = .ok (some f) ∧ req.searchPart? r = some s ∧
        e = f.and s.markOr := by
  obtain ⟨filter, hfilter, hboth⟩ := condition?_eq_ok_iff.1 h
  cases filter with
  | none => exact .inr (.inl ⟨hfilter, hboth⟩)
  | some f =>
    cases hsearch : req.searchPart? r with
    | none =>
      rw [hsearch] at hboth
      obtain rfl : f = e := Option.some.inj hboth
      exact .inl ⟨hfilter, rfl⟩
    | some s =>
      rw [hsearch] at hboth
      exact .inr (.inr ⟨f, s, hfilter, rfl, (Option.some.inj hboth).symm⟩)

/-- Nothing is built for nothing. -/
theorem Request.parts_of_condition?_none {req : Request} {r : Resolver}
    (h : req.condition? r = .ok none) :
    r.filter? req.filter = .ok none ∧ req.searchPart? r = none := by
  obtain ⟨filter, hfilter, hboth⟩ := condition?_eq_ok_iff.1 h
  cases filter with
  | none => exact ⟨hfilter, hboth⟩
  | some f => cases hsearch : req.searchPart? r <;> rw [hsearch] at hboth <;> cases hboth

/-! ## What holds at every stage -/

section Invariants

variable {P : Expr → Prop} {r : Resolver} {e : Expr}

/-- What every built item has, the items of a list that were all built have. -/
theorem forall_of_mapM_eq_ok {α : Type} {f : α → Except Rejection Expr} {xs : List α}
    {es : List Expr} (h : xs.mapM f = .ok es) (hf : ∀ x e, f x = .ok e → P e) : ∀ e ∈ es, P e := by
  have hall := (mapM_eq_ok_iff f xs es).1 h
  induction hall with
  | nil =>
    intro e he
    cases he
  | cons hx hrest ih =>
    exact List.forall_mem_cons.2 ⟨hf _ _ hx, ih ((mapM_eq_ok_iff f _ _).2 hrest)⟩

/-- What comparisons have and conjunctions keep, tuples have. -/
theorem Resolver.of_tuple (hcomparison : ∀ column c value, P (comparison column c value))
    (hand : ∀ a b, P a → P b → P (a.and b)) {names : List String} {columns : List Column}
    {values : List Literal} (h : tuple names columns values = .ok e) : P e := by
  obtain ⟨-, hall⟩ := tuple_eq_ok_iff.1 h
  apply Expr.of_join? hand hall
  intro x hx
  obtain ⟨i, hi, rfl⟩ := List.mem_iff_getElem.1 hx
  rw [List.getElem_zipWith]
  exact hcomparison _ _ _

/-- What pattern tests have and disjunctions keep, searches have. -/
theorem Request.of_searchPart? (hcontains : ∀ column text, P (Resolver.contains column text))
    (hor : ∀ a b, P a → P b → P (a.or b)) {req : Request} (h : req.searchPart? r = some e) : P e := by
  obtain ⟨text, -, hsearch⟩ := Option.bind_eq_some_iff.1 h
  apply Expr.of_join? hor hsearch
  intro x hx
  obtain ⟨name, -, rfl⟩ := List.mem_map.1 hx
  exact hcontains _ _

/-- A property of conditions that joining and marking keep. -/
structure Expr.Hereditary (P : Expr → Prop) : Prop where
  and : ∀ a b, P a → P b → P (a.and b)
  or : ∀ a b, P a → P b → P (a.or b)
  mark : ∀ a, P a → P a.mark

namespace Expr.Hereditary

variable (hP : Expr.Hereditary P)

include hP

theorem markOr (he : P e) : P e.markOr := by
  unfold Expr.markOr
  split
  · exact hP.mark e he
  · exact he

variable (hcomparison : ∀ column c value, P (Resolver.comparison column c value))

include hcomparison

theorem of_condition {c : Condition} (h : r.condition c = .ok e) : P e := by
  rcases Resolver.condition_eq_ok_iff.1 h with ⟨_, _, -, -, rfl⟩ | ⟨_, _, -, -, hkey⟩
  · exact hcomparison _ _ _
  · obtain ⟨-, -, es, joined, hes, hany, rfl⟩ := Resolver.key_eq_ok_iff.1 hkey
    apply hP.mark
    -- under the mark stand the tuples, joined by OR
    apply of_join? hP.or hany
    exact forall_of_mapM_eq_ok hes fun _ _ ht => Resolver.of_tuple hcomparison hP.and ht

theorem of_group {conditions : List Condition} (h : r.group conditions = .ok e) : P e := by
  obtain ⟨es, hes, hall⟩ := Resolver.group_eq_ok_iff.1 h
  exact of_join? hP.and hall (forall_of_mapM_eq_ok hes fun _ _ => hP.of_condition hcomparison)

theorem of_filter? {groups : List (List Condition)} (h : r.filter? groups = .ok (some e)) : P e := by
  obtain ⟨es, hes, hany⟩ := Resolver.filter?_eq_ok_iff.1 h
  exact of_join? hP.or hany (forall_of_mapM_eq_ok hes fun _ _ => hP.of_group hcomparison)

theorem of_condition? (hcontains : ∀ column text, P (Resolver.contains column text))
    {req : Request} (h : req.condition? r = .ok (some e)) : P e := by
  rcases Request.parts_of_condition? h with ⟨hfilter, -⟩ | ⟨-, hsearch⟩ | ⟨f, s, hfilter, hsearch, rfl⟩
  · exact hP.of_filter? hcomparison hfilter
  · exact Request.of_searchPart? hcontains hP.or hsearch
  · have hs := Request.of_searchPart? hcontains hP.or hsearch
    exact hP.and _ _ (hP.of_filter? hcomparison hfilter) (hP.markOr hs)

end Expr.Hereditary

end Invariants

/-! ## Foreign parts -/

namespace Expr

/-- A condition without foreign parts. -/
def Plain : Expr → Prop
  | .binary _ left right _ => left.Plain ∧ right.Plain
  | .foreign _ => False
  | _ => True

theorem hereditary_plain : Hereditary Plain where
  and _ _ ha hb := ⟨ha, hb⟩
  or _ _ ha hb := ⟨ha, hb⟩
  mark e he := by
    cases e with
    | binary op left right marked => exact he
    | _ => exact he

/-- What a request builds has no foreign parts. -/
theorem plain_of_condition? {req : Request} {r : Resolver} {e : Expr}
    (h : req.condition? r = .ok (some e)) : e.Plain :=
  hereditary_plain.of_condition? (fun _ _ _ => ⟨trivial, trivial⟩) (fun _ _ => ⟨trivial, trivial⟩) h

end Expr

/-! ## Operators without a mark -/

namespace Expr

/-- A binary operator that stands without parentheses when it is written out. -/
def Bare (op : Operator) (e : Expr) : Prop := e.operator? = some op ∧ e.isMarked = false

instance (op : Operator) (e : Expr) : Decidable (e.Bare op) :=
  inferInstanceAs (Decidable (_ ∧ _))

theorem bare_compare_iff {op op' : Operator} {a b : Expr} :
    (compare op a b).Bare op' ↔ op = op' := by
  simp [Bare, compare, operator?, isMarked]

theorem bare_and_iff {op : Operator} {a b : Expr} : (a.and b).Bare op ↔ .and = op :=
  bare_compare_iff

theorem bare_or_iff {op : Operator} {a b : Expr} : (a.or b).Bare op ↔ .or = op :=
  bare_compare_iff

theorem not_bare_mark (op : Operator) (e : Expr) : ¬ e.mark.Bare op := by
  cases e <;> simp [Bare, mark, operator?, isMarked]

end Expr

namespace Resolver

/-- A comparison is neither a conjunction nor a disjunction nor a pattern test. -/
theorem operator_comparison (c : Comparison) (withNull : Bool) :
    c.operator withNull ≠ .and ∧ c.operator withNull ≠ .or ∧ c.operator withNull ≠ .like := by
  cases c <;> cases withNull <;> decide

end Resolver

end QueryShaping
