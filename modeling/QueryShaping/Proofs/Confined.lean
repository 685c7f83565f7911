import QueryShaping.Proofs.Determined
import QueryShaping.Proofs.Shape

/-!
# Values have no say in the form of a condition

Of a value that a filter compares with only this is looked at: whether it is null. Of a tuple its
length is looked at, and of a text to search for whether it is empty. So two requests that differ in
their values alone are rejected alike, and make conditions of one form, with other literals on the
right of their tests.

## What this module delivers

- `Agree`: two attempts that fail alike or succeed with related results, and its laws.
- `Condition.Revalued`, `Request.Revalued`: requests that differ in their values alone.
- `Expr.Revalued`: conditions that differ in the right operands of their tests alone.
- `Resolver.agree_tuple` up to `Request.agree_patch`: the stages, one after the other.
- `Request.shape_revalued`: what two such requests make of a statement.
-/

set_option autoImplicit false

namespace QueryShaping

/-! ## Two attempts -/

section Agree

variable {ε α β α' β' γ δ : Type}

/-- Two attempts end alike: both fail with the same error, or both succeed, with related results. -/
inductive Agree (R : α → β → Prop) : Except ε α → Except ε β → Prop where
  | error (e : ε) : Agree R (.error e) (.error e)
  | ok {a : α} {b : β} : R a b → Agree R (.ok a) (.ok b)

namespace Agree

variable {R : α → β → Prop} {S : α' → β' → Prop}

theorem bind {x : Except ε α} {y : Except ε β} {f : α → Except ε α'} {g : β → Except ε β'}
    (hxy : Agree R x y) (hfg : ∀ a b, R a b → Agree S (f a) (g b)) :
    Agree S (x >>= f) (y >>= g) := by
  cases hxy with
  | error e => exact .error e
  | ok hab => exact hfg _ _ hab

theorem map {x : Except ε α} {y : Except ε β} {f : α → α'} {g : β → β'} (hxy : Agree R x y)
    (hfg : ∀ a b, R a b → S (f a) (g b)) : Agree S (f <$> x) (g <$> y) := by
  cases hxy with
  | error e => exact .error e
  | ok hab => exact .ok (hfg _ _ hab)

/-- Related lists are gone through alike. -/
theorem mapM {P : γ → δ → Prop} {f : γ → Except ε α} {g : δ → Except ε β} {xs : List γ}
    {ys : List δ} (hxy : List.Forall₂ P xs ys) (hfg : ∀ x y, P x y → Agree R (f x) (g y)) :
    Agree (List.Forall₂ R) (xs.mapM f) (ys.mapM g) := by
  induction hxy with
  | nil => exact .ok .nil
  | cons hx hrest ih =>
    rw [List.mapM_cons, List.mapM_cons]
    apply (hfg _ _ hx).bind
    intro a b hab
    apply ih.bind
    intro as bs hall
    exact .ok (.cons hab hall)

end Agree

end Agree

/-! ## Values and what is built of them -/

/-- Literals that are null together. -/
def Literal.NullAlike (l m : Literal) : Prop := l.isNull = m.isNull

/-- Conditions of a filter that differ in their values alone. -/
structure Condition.Revalued (c d : Condition) : Prop where
  target : c.target = d.target
  comparison : c.comparison = d.comparison
  operand : c.operand.Alike Literal.NullAlike d.operand

/-- Requests that differ in the values of their filters and in what they search for alone. -/
structure Request.Revalued (req req' : Request) : Prop where
  order : req.order = req'.order
  limit : req.limit = req'.limit
  page : req.page = req'.page
  searchable : req.searchable = req'.searchable
  limitPer : req.limitPer = req'.limitPer
  filter : List.Forall₂ (List.Forall₂ Condition.Revalued) req.filter req'.filter
  search : req.search = req'.search ∨
    ∃ s t, req.search = some s ∧ req'.search = some t ∧ s ≠ "" ∧ t ≠ ""

/-- Conditions of one form: they differ in the literals on the right of their tests alone, and there
null stands on both sides or on none. -/
inductive Expr.Revalued : Expr → Expr → Prop where
  | same (e : Expr) : Revalued e e
  | test {op : Operator} {l m : Literal} (column : Column) (marked : Bool) :
      op ≠ .and → op ≠ .or → l.NullAlike m →
      Revalued (.binary op (.column column) (.literal l) marked)
        (.binary op (.column column) (.literal m) marked)
  | joined {op : Operator} {left right left' right' : Expr} (marked : Bool) :
      op = .and ∨ op = .or → Revalued left left' → Revalued right right' →
      Revalued (.binary op left right marked) (.binary op left' right' marked)

namespace Expr

variable {a b a' b' : Expr}

theorem Revalued.and (ha : a.Revalued a') (hb : b.Revalued b') : (a.and b).Revalued (a'.and b') :=
  .joined false (Or.inl rfl) ha hb

theorem Revalued.or (ha : a.Revalued a') (hb : b.Revalued b') : (a.or b).Revalued (a'.or b') :=
  .joined false (Or.inr rfl) ha hb

theorem Revalued.mark (h : a.Revalued b) : a.mark.Revalued b.mark := by
  cases h with
  | same => exact .same _
  | test column marked hand hor hnull => exact .test column true hand hor hnull
  | joined marked hop hl hr => exact .joined true hop hl hr

theorem Revalued.operator?_eq (h : a.Revalued b) : a.operator? = b.operator? := by
  cases h <;> rfl

theorem Revalued.markOr (h : a.Revalued b) : a.markOr.Revalued b.markOr := by
  rw [Expr.markOr, Expr.markOr, h.operator?_eq]
  split
  · exact h.mark
  · exact h

/-- Joining looks at nothing but the number of conditions. -/
theorem Revalued.join? {f : Expr → Expr → Expr}
    (hf : ∀ {a b a' b' : Expr}, a.Revalued a' → b.Revalued b' → (f a b).Revalued (f a' b'))
    {es es' : List Expr} (h : List.Forall₂ Revalued es es') :
    Option.Rel Revalued (Expr.join? f es) (Expr.join? f es') := by
  -- what has been joined so far are any two conditions of one form
  have hfold : ∀ {rest rest' : List Expr}, List.Forall₂ Revalued rest rest' →
      ∀ {a a' : Expr}, a.Revalued a' → (rest.foldl f a).Revalued (rest'.foldl f a') := by
    intro rest rest' hrest
    induction hrest with
    | nil =>
      intro a a' ha
      exact ha
    | cons hb hrest ih =>
      intro a a' ha
      exact ih (hf ha hb)
  cases h with
  | nil => exact .none
  | cons ha hrest => exact .some (hfold hrest ha)

theorem cases_of_rel {x y : Option Expr} (h : Option.Rel Revalued x y) :
    (x = none ∧ y = none) ∨ ∃ e e', x = some e ∧ y = some e' ∧ e.Revalued e' := by
  cases h with
  | none => exact Or.inl ⟨rfl, rfl⟩
  | some he => exact Or.inr ⟨_, _, rfl, rfl, he⟩

theorem Revalued.all? {es es' : List Expr} (h : List.Forall₂ Revalued es es') :
    (Expr.all? es = none ∧ Expr.all? es' = none) ∨
      ∃ e e', Expr.all? es = some e ∧ Expr.all? es' = some e' ∧ e.Revalued e' :=
  cases_of_rel (Revalued.join? Revalued.and h)

theorem Revalued.any? {es es' : List Expr} (h : List.Forall₂ Revalued es es') :
    (Expr.any? es = none ∧ Expr.any? es' = none) ∨
      ∃ e e', Expr.any? es = some e ∧ Expr.any? es' = some e' ∧ e.Revalued e' :=
  cases_of_rel (Revalued.join? Revalued.or h)

theorem Revalued.filterAndSearch {filter filter' search search' : Option Expr}
    (hfilter : Option.Rel Revalued filter filter') (hsearch : Option.Rel Revalued search search') :
    Option.Rel Revalued (Expr.filterAndSearch filter search)
      (Expr.filterAndSearch filter' search') := by
  cases hfilter with
  | none => cases hsearch with
    | none => exact .none
    | some hs => exact .some hs
  | some hf => cases hsearch with
    | none => exact .some hf
    | some hs => exact .some (hf.and hs.markOr)

/-- The condition that a statement has already stays what it is. -/
theorem Revalued.merge (existing : Option Expr) (h : a.Revalued b) :
    (Expr.merge existing a).Revalued (Expr.merge existing b) := by
  cases existing with
  | none => exact h
  | some e => exact (Revalued.same e).and h

end Expr

/-! ## Stages -/

namespace Resolver

variable {r : Resolver}

theorem revalued_comparison {l m : Literal} (column : Column) (c : Comparison)
    (h : l.NullAlike m) : (comparison column c l).Revalued (comparison column c m) := by
  -- the operator depends on whether the value is null, and is never one that joins
  obtain ⟨hand, hor, -⟩ := operator_comparison c l.isNull
  rw [comparison, comparison, ← h]
  exact .test column false hand hor h

theorem revalued_contains (column : Column) (s t : String) :
    (contains column s).Revalued (contains column t) :=
  .test column false (by decide) (by decide) rfl

theorem agree_tuple (names : List String) (columns : List Column) {values values' : List Literal}
    (h : List.Forall₂ Literal.NullAlike values values') :
    Agree Expr.Revalued (tuple names columns values) (tuple names columns values') := by
  unfold tuple
  rw [h.length_eq]
  split
  · exact .error _
  · have hparts : List.Forall₂ Expr.Revalued
        (List.zipWith (comparison · .equal ·) columns values)
        (List.zipWith (comparison · .equal ·) columns values') := by
      clear * - h
      induction h generalizing columns with
      | nil => simp
      | cons hl hrest ih =>
        cases columns with
        | nil => exact .nil
        | cons column columns => exact .cons (revalued_comparison column .equal hl) (ih columns)
    rcases Expr.Revalued.all? hparts with ⟨hnone, hnone'⟩ | ⟨e, e', hsome, hsome', he⟩
    · rw [hnone, hnone']
      exact .error _
    · rw [hsome, hsome']
      exact .ok he

theorem agree_key (names : List String) (c : Comparison) {tuples tuples' : List (List Literal)}
    (h : List.Forall₂ (List.Forall₂ Literal.NullAlike) tuples tuples') :
    Agree Expr.Revalued (r.key names c tuples) (r.key names c tuples') := by
  unfold key
  split
  · exact .error _
  · split
    · exact .error _
    · -- both keys have as many tuples, so both have something to join or neither has
      apply (Agree.mapM h fun _ _ => agree_tuple names _).bind
      intro es es' hes
      rcases Expr.Revalued.any? hes with ⟨hnone, hnone'⟩ | ⟨e, e', hsome, hsome', he⟩
      · rw [hnone, hnone']
        exact .error _
      · rw [hsome, hsome']
        exact .ok he.mark

theorem agree_condition {c d : Condition} (h : c.Revalued d) :
    Agree Expr.Revalued (r.condition c) (r.condition d) := by
  obtain ⟨target, c, operand⟩ := c
  obtain ⟨target', c', operand'⟩ := d
  obtain ⟨rfl, rfl, hoperand⟩ := h
  cases target with
  | single name =>
    cases hoperand with
    | scalar hl => exact .ok (revalued_comparison _ c hl)
    | tuples htuples =>
      simp only [condition, htuples.length_eq]
      exact .error _
  | composite names =>
    cases hoperand with
    | scalar hl => exact .error _
    | tuples htuples => exact agree_key names c htuples

theorem agree_group {conditions conditions' : List Condition}
    (h : List.Forall₂ Condition.Revalued conditions conditions') :
    Agree Expr.Revalued (r.group conditions) (r.group conditions') := by
  rw [group]
  apply (Agree.mapM h fun _ _ => agree_condition).bind
  intro es es' hes
  rcases Expr.Revalued.all? hes with ⟨hnone, hnone'⟩ | ⟨e, e', hsome, hsome', he⟩
  · rw [hnone, hnone']
    exact .error _
  · rw [hsome, hsome']
    exact .ok he

theorem agree_filter? {groups groups' : List (List Condition)}
    (h : List.Forall₂ (List.Forall₂ Condition.Revalued) groups groups') :
    Agree (Option.Rel Expr.Revalued) (r.filter? groups) (r.filter? groups') := by
  apply (Agree.mapM h fun _ _ => agree_group).map
  intro es es' hes
  exact Expr.Revalued.join? Expr.Revalued.or hes

/-- A search has a test for each attribute, whatever is searched for. -/
theorem revalued_search? (searchable : List String) (s t : String) :
    Option.Rel Expr.Revalued (r.search? searchable s) (r.search? searchable t) := by
  apply Expr.Revalued.join? Expr.Revalued.or
  rw [List.forall₂_map_left_iff, List.forall₂_map_right_iff]
  exact List.forall₂_same.2 fun name _ => revalued_contains _ s t

end Resolver

/-! ## Requests -/

/-- Patches that differ in the values of their conditions alone. -/
structure Patch.Revalued (p q : Patch) : Prop where
  order : p.order = q.order
  window : p.window = q.window
  condition : Option.Rel Expr.Revalued p.condition q.condition

/-- Statements that differ in the values of their conditions alone. -/
structure Statement.Revalued (st st' : Statement) : Prop where
  frame : st' = { st with condition := st'.condition }
  condition : Option.Rel Expr.Revalued st.condition st'.condition

namespace Request

variable {req req' : Request}

theorem Revalued.searchPart? (h : req.Revalued req') (r : Resolver) :
    Option.Rel Expr.Revalued (req.searchPart? r) (req'.searchPart? r) := by
  unfold Request.searchPart? Request.searchText?
  rw [h.searchable]
  rcases h.search with heq | ⟨s, t, hs, ht, hsne, htne⟩
  · rw [heq]
    cases req'.search.filter fun text => !text.isEmpty with
    | none => exact .none
    | some text => exact Resolver.revalued_search? _ text text
  · have hs' : req.search.filter (fun text => !text.isEmpty) = some s := by simp [hs, hsne]
    have ht' : req'.search.filter (fun text => !text.isEmpty) = some t := by simp [ht, htne]
    rw [hs', ht']
    exact Resolver.revalued_search? _ s t

theorem agree_condition? (h : req.Revalued req') (r : Resolver) :
    Agree (Option.Rel Expr.Revalued) (req.condition? r) (req'.condition? r) := by
  rw [condition?]
  apply (Resolver.agree_filter? h.filter).bind
  intro filter filter' hfilter
  exact .ok (Expr.Revalued.filterAndSearch hfilter (h.searchPart? r))

theorem agree_patch (h : req.Revalued req') (st : Statement) :
    Agree Patch.Revalued (req.patch st) (req'.patch st) := by
  unfold patch orderEntries?
  rw [h.limitPer, h.order, h.limit, h.page]
  split
  · exact .error _
  · -- the order and the window are worked out of what both requests share
    apply (agree_condition? h _).bind
    intro condition condition' hcondition
    exact .ok ⟨rfl, rfl, hcondition⟩

end Request

/-- A patch is applied without a look at its condition. -/
theorem Patch.Revalued.apply {p q : Patch} (h : p.Revalued q) (st : Statement) :
    (p.apply st).Revalued (q.apply st) := by
  obtain ⟨order, window, condition⟩ := p
  obtain ⟨order', window', condition'⟩ := q
  obtain ⟨rfl, rfl, hcondition⟩ := h
  refine ⟨rfl, ?_⟩
  cases hcondition with
  | none =>
    cases hst : st.condition with
    | none => simp [Patch.apply, hst]
    | some e => simpa [Patch.apply, hst] using Expr.Revalued.same e
  | some he => exact .some (he.merge st.condition)

/-- Two requests that differ in their values alone are rejected for the same cause, or change a
statement in the same way: order and window are the same, and the conditions are of one form. -/
theorem Request.shape_revalued {req req' : Request} (h : req.Revalued req') (st : Statement) :
    Agree Patch.Revalued (req.patch st) (req'.patch st) ∧
      Agree Statement.Revalued (req.shape st) (req'.shape st) := by
  refine ⟨agree_patch h st, ?_⟩
  rw [shape]
  apply (agree_patch h st).bind
  intro p q hpq
  exact .ok (hpq.apply st)

namespace Request

/-- A request for a key with a given value, another column being null, and for a given text. -/
def keyed (value : Literal) (text : String) : Request :=
  { empty with
    filter := [[⟨.composite ["a", "b"], .equal, .tuples [[value, .null]]⟩,
      ⟨.single "c", .equal, .scalar .null⟩]]
    searchable := ["a", "b"]
    search := some text }

/-- A value and a text that look like parts of a condition are compared with and searched for. -/
theorem shape_revalued_quotes :
    ∃ st st', (keyed (.number (.int (.ofUInt64 1))) "x").shape (.ofTable (.named "t" none)) = .ok st ∧
      (keyed (.text "1' OR '1'='1") "%' OR 1=1").shape (.ofTable (.named "t" none)) = .ok st' ∧
      st.Revalued st' := by
  have hrevalued : (keyed (.number (.int (.ofUInt64 1))) "x").Revalued
      (keyed (.text "1' OR '1'='1") "%' OR 1=1") := by
    refine ⟨rfl, rfl, rfl, rfl, rfl, ?_, Or.inr ⟨_, _, rfl, rfl, by decide, by decide⟩⟩
    have hkey : List.Forall₂ (List.Forall₂ Literal.NullAlike) [[.number (.int (.ofUInt64 1)), .null]]
        [[.text "1' OR '1'='1", .null]] := .cons (.cons rfl (.cons rfl .nil)) .nil
    exact .cons (.cons ⟨rfl, rfl, .tuples hkey⟩ (.cons ⟨rfl, rfl, .scalar rfl⟩ .nil)) .nil
  cases (shape_revalued hrevalued (.ofTable (.named "t" none))).2 with
  | ok h => exact ⟨_, _, rfl, rfl, h⟩

end Request

end QueryShaping
