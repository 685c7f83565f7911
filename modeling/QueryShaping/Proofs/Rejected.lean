import QueryShaping.Proofs.Shape
import QueryShaping.Proofs.Stages
import QueryShaping.Proofs.Truth

/-!
# Requests that are rejected

A request is rejected for its limit for groups of rows, or for its filter. What is wrong with a filter
can be told from the filter alone: it is read from the left, and the first group that is empty or
holds a faulty condition gives the cause. A condition can have several faults, of which again only
the first one counts.

## What this module delivers

- `Condition.Faulty`, `Condition.Offends`: the faults of a condition, and the one that counts.
- `Condition.GroupOffends`, `Request.Offends`: the cause for which a group and a whole request are
  rejected.
- `Resolver.tuple_eq_error_iff`, `Resolver.key_eq_error_iff`, `Resolver.condition_eq_error_iff`,
  `Resolver.group_eq_error_iff`, `Resolver.filter?_eq_error_iff`: the failures of the stages, one for
  each `..._eq_ok_iff`.
- `Request.shape_eq_error_iff`: no statement makes a difference to whether a request is rejected, and
  for which cause.
-/

set_option autoImplicit false

namespace QueryShaping

/-! ## Faults -/

namespace Condition

/-- What a condition tests and what it compares with do not fit together. -/
def Faulty (c : Condition) : Prop :=
  match c.target, c.operand with
  | .single _, .scalar _ => False
  | .single _, .tuples _ => True
  | .composite _, .scalar _ => True
  | .composite names, .tuples tuples =>
    c.comparison ≠ .equal ∨ names = [] ∨ (∃ t ∈ tuples, t.length ≠ names.length) ∨ tuples = []

/-- The first fault of a condition. Of a key of several attributes the comparison is looked at first,
then the names, then the tuples from the left, and last whether there is a tuple at all. -/
inductive Offends : Condition → Rejection → Prop where
  | manyForOne (name : String) (c : Comparison) (tuples : List (List Literal)) :
      Offends ⟨.single name, c, .tuples tuples⟩ (.arity (.single name) 1 tuples.length)
  | oneForMany (names : List String) (c : Comparison) (value : Literal) :
      Offends ⟨.composite names, c, .scalar value⟩ (.arity (.composite names) names.length 1)
  | comparison {c : Comparison} (names : List String) (tuples : List (List Literal)) :
      c ≠ .equal → Offends ⟨.composite names, c, .tuples tuples⟩ (.keyComparison c names)
  | noNames (tuples : List (List Literal)) :
      Offends ⟨.composite [], .equal, .tuples tuples⟩ .emptyKey
  | length {names : List String} {before after : List (List Literal)} {t : List Literal} :
      names ≠ [] → (∀ u ∈ before, u.length = names.length) → t.length ≠ names.length →
      Offends ⟨.composite names, .equal, .tuples (before ++ t :: after)⟩
        (.arity (.composite names) names.length t.length)
  | noTuples {names : List String} : names ≠ [] →
      Offends ⟨.composite names, .equal, .tuples []⟩ (.noTuples names)

/-- A group that holds conditions, all of them without fault. -/
def Sound (conditions : List Condition) : Prop :=
  conditions ≠ [] ∧ ∀ c ∈ conditions, ¬ c.Faulty

/-- A group is rejected where it is empty, or for its first faulty condition. -/
inductive GroupOffends : List Condition → Rejection → Prop where
  | empty : GroupOffends [] .emptyGroup
  | condition {before after : List Condition} {c : Condition} {cause : Rejection} :
      (∀ d ∈ before, ¬ d.Faulty) → c.Offends cause → GroupOffends (before ++ c :: after) cause

end Condition

/-- A request is rejected for its limit for groups of rows, whatever else is wrong with it, and
otherwise for the first group of its filter that is. -/
inductive Request.Offends : Request → Rejection → Prop where
  | limitPer {req : Request} : req.limitPer ≠ none → Offends req .limitPer
  | group {req : Request} {before after : List (List Condition)} {conditions : List Condition}
      {cause : Rejection} : req.limitPer = none → req.filter = before ++ conditions :: after →
      (∀ g ∈ before, Condition.Sound g) → Condition.GroupOffends conditions cause →
      Offends req cause

/-! ## Failures of the stages -/

namespace Resolver

open QueryShaping.Condition

variable {r : Resolver} {cause : Rejection}

/-- A tuple has the wrong length. For columns that are there, it cannot be empty otherwise. -/
theorem tuple_eq_error_iff {names : List String} {columns : List Column} {values : List Literal}
    (hcolumns : columns ≠ []) :
    tuple names columns values = .error cause ↔
      values.length ≠ columns.length ∧
        cause = .arity (.composite names) columns.length values.length := by
  rw [tuple]
  by_cases hlength : values.length = columns.length
  · -- one test for each column, and there is a column
    rw [if_neg (not_not.2 hlength)]
    cases columns with
    | nil => exact absurd rfl hcolumns
    | cons column columns =>
      obtain ⟨value, values, rfl⟩ := List.exists_cons_of_length_eq_add_one hlength
      simp [Expr.all?, Expr.join?, hlength]
  · rw [if_pos hlength]
    simp [hlength, eq_comm]

theorem exists_tuple_iff {names : List String} {columns : List Column} {values : List Literal}
    (hcolumns : columns ≠ []) :
    (∃ e, tuple names columns values = .ok e) ↔ values.length = columns.length := by
  rw [← not_iff_not, ← exists_eq_error_iff]
  simp only [tuple_eq_error_iff hcolumns]
  constructor
  · rintro ⟨_, hlength, -⟩
    exact hlength
  · intro hlength
    exact ⟨_, hlength, rfl⟩

/-- A key is rejected for the first of its faults. -/
theorem key_eq_error_iff {names : List String} {c : Comparison} {tuples : List (List Literal)} :
    r.key names c tuples = .error cause ↔
      Condition.Offends ⟨.composite names, c, .tuples tuples⟩ cause := by
  rw [key]
  by_cases hc : c = .equal
  · subst hc
    rw [if_neg (by simp)]
    by_cases hnames : names = []
    · subst hnames
      simp only [List.isEmpty_nil, if_true, Except.error.injEq]
      constructor
      · rintro rfl
        exact .noNames tuples
      · intro h
        cases h with
        | comparison _ _ hne => exact absurd rfl hne
        | noNames => rfl
        | length hne => exact absurd rfl hne
        | noTuples hne => exact absurd rfl hne
    · have hcolumns : names.map r.resolve ≠ [] := by simp [hnames]
      rw [if_neg (by simpa using hnames), bind_eq_error_iff, mapM_eq_error_iff]
      simp only [exists_tuple_iff hcolumns, tuple_eq_error_iff hcolumns, List.length_map]
      constructor
      · rintro (⟨before, t, after, rfl, hbefore, ht, rfl⟩ | ⟨es, hes, hany⟩)
        · exact .length hnames hbefore ht
        · -- only a key without tuples leaves nothing to join
          cases es with
          | nil =>
            cases (mapM_eq_ok_iff _ _ _).1 hes
            obtain rfl : Rejection.noTuples names = cause := Except.error.inj hany
            exact .noTuples hnames
          | cons e es => cases hany
      · intro h
        cases h with
        | comparison _ _ hne => exact absurd rfl hne
        | noNames => exact absurd rfl hnames
        | length _ hbefore ht => exact Or.inl ⟨_, _, _, rfl, hbefore, ht, rfl⟩
        | noTuples => exact Or.inr ⟨[], rfl, rfl⟩
  · rw [if_pos hc]
    simp only [Except.error.injEq]
    constructor
    · rintro rfl
      exact .comparison names tuples hc
    · intro h
      cases h with
      | comparison => rfl
      | noNames => exact absurd rfl hc
      | length => exact absurd rfl hc
      | noTuples => exact absurd rfl hc

theorem condition_eq_error_iff {c : Condition} :
    r.condition c = .error cause ↔ c.Offends cause := by
  obtain ⟨target, c, operand⟩ := c
  cases target with
  | single name =>
    cases operand with
    | scalar value => exact ⟨nofun, nofun⟩
    | tuples tuples =>
      constructor
      · intro h
        cases h
        exact .manyForOne name c tuples
      · intro h
        cases h
        rfl
  | composite names =>
    cases operand with
    | scalar value =>
      constructor
      · intro h
        cases h
        exact .oneForMany names c value
      · intro h
        cases h
        rfl
    | tuples tuples => exact key_eq_error_iff

/-- What is built is joined exactly if there is something to build, and all of it can be. -/
theorem exists_joined_iff {α : Type} {build : α → Except Rejection Expr} (join : Expr → Expr → Expr)
    {xs : List α} :
    (∃ es joined, xs.mapM build = .ok es ∧ Expr.join? join es = some joined) ↔
      xs ≠ [] ∧ ∀ x ∈ xs, ∃ e, build x = .ok e := by
  rw [← exists_mapM_eq_ok_iff]
  constructor
  · rintro ⟨es, joined, hes, hjoined⟩
    refine ⟨?_, es, hes⟩
    rintro rfl
    cases (mapM_eq_ok_iff _ _ _).1 hes
    cases hjoined
  · rintro ⟨hne, es, hes⟩
    cases hjoined : Expr.join? join es with
    | none =>
      obtain rfl := (Expr.join?_eq_none_iff _ _).1 hjoined
      cases (mapM_eq_ok_iff _ _ _).1 hes
      exact absurd rfl hne
    | some joined => exact ⟨es, joined, hes, hjoined⟩

/-- A key is built exactly if it has no fault. -/
theorem exists_key_iff {names : List String} {c : Comparison} {tuples : List (List Literal)} :
    (∃ e, r.key names c tuples = .ok e) ↔
      c = .equal ∧ names ≠ [] ∧ (∀ t ∈ tuples, t.length = names.length) ∧ tuples ≠ [] := by
  simp only [key_eq_ok_iff]
  constructor
  · rintro ⟨_, hc, hnames, es, joined, hes, hany, -⟩
    have hcolumns : names.map r.resolve ≠ [] := by simp [hnames]
    obtain ⟨htuples, hbuilt⟩ := (exists_joined_iff Expr.or).1 ⟨es, joined, hes, hany⟩
    simp only [exists_tuple_iff hcolumns, List.length_map] at hbuilt
    exact ⟨hc, hnames, hbuilt, htuples⟩
  · rintro ⟨hc, hnames, hlengths, htuples⟩
    have hcolumns : names.map r.resolve ≠ [] := by simp [hnames]
    have hbuilt : ∀ t ∈ tuples, ∃ e, tuple names (names.map r.resolve) t = .ok e := by
      simpa only [exists_tuple_iff hcolumns, List.length_map] using hlengths
    obtain ⟨es, joined, hes, hany⟩ := (exists_joined_iff Expr.or).2 ⟨htuples, hbuilt⟩
    exact ⟨joined.mark, hc, hnames, es, joined, hes, hany, rfl⟩

/-- A condition is built exactly if it has no fault. -/
theorem exists_condition_iff {c : Condition} : (∃ e, r.condition c = .ok e) ↔ ¬ c.Faulty := by
  obtain ⟨target, c, operand⟩ := c
  cases target with
  | single name => cases operand <;> simp [condition, Faulty]
  | composite names =>
    cases operand with
    | scalar value => simp [condition, Faulty]
    | tuples tuples =>
      show (∃ e, r.key names c tuples = .ok e) ↔ _
      rw [exists_key_iff]
      simp only [Faulty, ne_eq, not_or, not_not, not_exists, not_and]

/-- A group is rejected where it is empty, or for its first faulty condition. -/
theorem group_eq_error_iff {conditions : List Condition} :
    r.group conditions = .error cause ↔ GroupOffends conditions cause := by
  rw [group, bind_eq_error_iff, mapM_eq_error_iff]
  simp only [exists_condition_iff, condition_eq_error_iff]
  constructor
  · rintro (⟨before, c, after, rfl, hbefore, hc⟩ | ⟨es, hes, hall⟩)
    · exact .condition hbefore hc
    · -- where all conditions are built, only an empty group leaves nothing to join
      cases es with
      | nil =>
        cases (mapM_eq_ok_iff _ _ _).1 hes
        obtain rfl : Rejection.emptyGroup = cause := Except.error.inj hall
        exact .empty
      | cons e es => cases hall
  · intro h
    cases h with
    | empty => exact Or.inr ⟨[], rfl, rfl⟩
    | condition hbefore hc => exact Or.inl ⟨_, _, _, rfl, hbefore, hc⟩

theorem exists_group_iff {conditions : List Condition} :
    (∃ e, r.group conditions = .ok e) ↔ Sound conditions := by
  simp only [group_eq_ok_iff]
  constructor
  · rintro ⟨e, es, hes, hall⟩
    obtain ⟨hne, hbuilt⟩ := (exists_joined_iff Expr.and).1 ⟨es, e, hes, hall⟩
    simp only [exists_condition_iff] at hbuilt
    exact ⟨hne, hbuilt⟩
  · rintro ⟨hne, hsound⟩
    have hbuilt : ∀ c ∈ conditions, ∃ e, r.condition c = .ok e := by
      simpa only [exists_condition_iff] using hsound
    obtain ⟨es, e, hes, hall⟩ := (exists_joined_iff Expr.and).2 ⟨hne, hbuilt⟩
    exact ⟨e, es, hes, hall⟩

/-- A filter is rejected for the first group that is not sound. -/
theorem filter?_eq_error_iff {groups : List (List Condition)} :
    r.filter? groups = .error cause ↔
      ∃ before conditions after, groups = before ++ conditions :: after ∧
        (∀ g ∈ before, Sound g) ∧ GroupOffends conditions cause := by
  have hfilter : r.filter? groups = .error cause ↔ groups.mapM r.group = .error cause := by
    show Except.map _ (groups.mapM r.group) = _ ↔ _
    cases groups.mapM r.group <;> simp [Except.map]
  rw [hfilter, mapM_eq_error_iff]
  simp only [exists_group_iff, group_eq_error_iff]

end Resolver

namespace Condition

/-- What is wrong with a group can be said. -/
theorem exists_groupOffends_iff {conditions : List Condition} :
    (∃ cause, GroupOffends conditions cause) ↔ ¬ Sound conditions := by
  -- any meaning of the names does: a group is built or it is not
  let r : Resolver := ⟨[], none⟩
  rw [← r.exists_group_iff, ← exists_eq_error_iff]
  simp only [Resolver.group_eq_error_iff]

theorem not_sound_iff {conditions : List Condition} :
    ¬ Sound conditions ↔ conditions = [] ∨ ∃ c ∈ conditions, c.Faulty := by
  simp only [Sound, ne_eq, not_and_or, not_not, not_forall, exists_prop]

/-- No fault is that of a tuple without values: where that is wrong at all, its length is. -/
theorem Offends.ne_emptyTuple {c : Condition} {cause : Rejection} (h : c.Offends cause)
    (names : List String) : cause ≠ .emptyTuple names := by
  cases h <;> exact nofun

theorem GroupOffends.ne_emptyTuple {conditions : List Condition} {cause : Rejection}
    (h : GroupOffends conditions cause) (names : List String) : cause ≠ .emptyTuple names := by
  cases h with
  | empty => exact nofun
  | condition _ hc => exact hc.ne_emptyTuple names

end Condition

/-! ## Requests -/

namespace Request

open QueryShaping.Condition

variable {req : Request} {cause : Rejection}

theorem condition?_eq_error_iff {r : Resolver} :
    req.condition? r = .error cause ↔ r.filter? req.filter = .error cause := by
  rw [condition?, bind_eq_error_iff]
  constructor
  · rintro (h | ⟨_, _, h⟩)
    · exact h
    · cases h
  · intro h
    exact Or.inl h

theorem patch_eq_error_iff {st : Statement} : req.patch st = .error cause ↔ req.Offends cause := by
  rw [patch]
  cases hlimit : req.limitPer with
  | some value =>
    simp only [Option.isSome_some, if_true, Except.error.injEq]
    constructor
    · rintro rfl
      exact .limitPer (by simp [hlimit])
    · intro h
      cases h with
      | limitPer => rfl
      | group hnone => simp [hlimit] at hnone
  | none =>
    simp only [Option.isSome_none, Bool.false_eq_true, if_false]
    rw [bind_eq_error_iff, condition?_eq_error_iff, Resolver.filter?_eq_error_iff]
    constructor
    · rintro (⟨before, conditions, after, hfilter, hbefore, hconditions⟩ | ⟨_, _, h⟩)
      · exact .group hlimit hfilter hbefore hconditions
      · cases h
    · intro h
      cases h with
      | limitPer hsome => exact absurd hlimit hsome
      | group _ hfilter hbefore hconditions =>
        exact Or.inl ⟨_, _, _, hfilter, hbefore, hconditions⟩

/-- A request is worked out into a patch and only then applied, which cannot fail. -/
theorem shape_eq_error_iff_patch {st : Statement} :
    req.shape st = .error cause ↔ req.patch st = .error cause := by
  rw [shape, bind_eq_error_iff]
  constructor
  · rintro (h | ⟨_, _, h⟩)
    · exact h
    · cases h
  · intro h
    exact Or.inl h

/-- Some cause counts exactly if there is a limit for groups, an empty group or a faulty condition. -/
theorem exists_offends_iff :
    (∃ cause, req.Offends cause) ↔
      req.limitPer ≠ none ∨ [] ∈ req.filter ∨ ∃ g ∈ req.filter, ∃ c ∈ g, c.Faulty := by
  constructor
  · rintro ⟨cause, h⟩
    cases h with
    | limitPer hsome => exact Or.inl hsome
    | @group before after conditions _ _ hfilter _ hconditions =>
      have hmem : conditions ∈ req.filter := by simp [hfilter]
      rcases not_sound_iff.1 (exists_groupOffends_iff.1 ⟨cause, hconditions⟩) with rfl | hfaulty
      · exact Or.inr (Or.inl hmem)
      · exact Or.inr (Or.inr ⟨conditions, hmem, hfaulty⟩)
  · intro h
    by_cases hlimit : req.limitPer = none
    · -- the first unsound group is the one that counts
      have hfails : ∃ cause, Resolver.filter? ⟨[], none⟩ req.filter = .error cause := by
        rw [exists_eq_error_iff]
        rintro ⟨result, hok⟩
        obtain ⟨es, hes, -⟩ := Resolver.filter?_eq_ok_iff.1 hok
        have hsound := (exists_mapM_eq_ok_iff _ _).1 ⟨es, hes⟩
        simp only [Resolver.exists_group_iff] at hsound
        rcases h with hsome | hempty | ⟨g, hg, hfaulty⟩
        · exact hsome hlimit
        · exact (hsound [] hempty).1 rfl
        · exact not_sound_iff.2 (Or.inr hfaulty) (hsound g hg)
      obtain ⟨cause, hcause⟩ := hfails
      obtain ⟨before, conditions, after, hfilter, hbefore, hconditions⟩ :=
        Resolver.filter?_eq_error_iff.1 hcause
      exact ⟨cause, .group hlimit hfilter hbefore hconditions⟩
    · exact ⟨.limitPer, .limitPer hlimit⟩

theorem Offends.ne_emptyTuple (h : req.Offends cause) (names : List String) :
    cause ≠ .emptyTuple names := by
  cases h with
  | limitPer => exact nofun
  | group _ _ _ hconditions => exact hconditions.ne_emptyTuple names

/-- Exactly when and for which cause a request is rejected. A statement has no say in it, and no
request is rejected for a tuple without values. -/
theorem shape_eq_error_iff (req : Request) (st : Statement) :
    ((∃ cause, req.shape st = .error cause) ↔
        req.limitPer ≠ none ∨ [] ∈ req.filter ∨ ∃ g ∈ req.filter, ∃ c ∈ g, c.Faulty) ∧
      (∀ cause, req.shape st = .error cause ↔ req.Offends cause) ∧
      (∀ st' cause, req.shape st' = .error cause ↔ req.shape st = .error cause) ∧
      ∀ names, req.shape st ≠ .error (.emptyTuple names) := by
  have hall : ∀ st cause, req.shape st = .error cause ↔ req.Offends cause := by
    intro st cause
    rw [shape_eq_error_iff_patch, patch_eq_error_iff]
  refine ⟨?_, hall st, ?_, ?_⟩
  · simp only [hall, exists_offends_iff]
  · intro st' cause
    rw [hall, hall]
  · intro names h
    exact ((hall st _).1 h).ne_emptyTuple names rfl

end Request

end QueryShaping
