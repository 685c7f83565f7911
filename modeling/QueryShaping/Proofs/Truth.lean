import QueryShaping.Expr.Basic

/-!
# Truth values of conditions

In a row of a table a condition is true, false or unknown, as comparisons with null are. A
`Valuation` gives the values of the nodes that are neither conjunctions nor disjunctions; the value
of a whole condition follows from them. Marks have no influence: they say how a condition is written
and not what it means.

## What this module delivers

- `Truth`, `Truth.and`, `Truth.or`: the three values and their connectives; `Truth.all`, `Truth.any`
  over lists.
- `Valuation`, `Expr.truth`, `Expr.truth?`: the value of a condition, present or absent.
- `Expr.truth_all?`, `Expr.truth_any?`: joining a list from the left means the connective over the
  list, however long it is.
-/

set_option autoImplicit false

namespace QueryShaping

/-- The value of a condition in a row. -/
inductive Truth where
  | yes
  | no
  | unknown
  deriving DecidableEq

namespace Truth

/-! ## Connectives -/

/-- The conjunction: false as soon as one side is, true where both are. -/
def and : Truth → Truth → Truth
  | .no, _ => .no
  | _, .no => .no
  | .yes, .yes => .yes
  | _, _ => .unknown

/-- The disjunction: true as soon as one side is, false where both are. -/
def or : Truth → Truth → Truth
  | .yes, _ => .yes
  | _, .yes => .yes
  | .no, .no => .no
  | _, _ => .unknown

/-- The conjunction of a list. -/
def all (ts : List Truth) : Truth := ts.foldr and .yes

/-- The disjunction of a list. -/
def any (ts : List Truth) : Truth := ts.foldr or .no

theorem and_assoc (a b c : Truth) : (a.and b).and c = a.and (b.and c) := by
  cases a <;> cases b <;> cases c <;> rfl

theorem or_assoc (a b c : Truth) : (a.or b).or c = a.or (b.or c) := by
  cases a <;> cases b <;> cases c <;> rfl

@[simp] theorem and_yes (a : Truth) : a.and .yes = a := by
  cases a <;> rfl

@[simp] theorem yes_and (a : Truth) : Truth.yes.and a = a := by
  cases a <;> rfl

@[simp] theorem or_no (a : Truth) : a.or .no = a := by
  cases a <;> rfl

@[simp] theorem no_or (a : Truth) : Truth.no.or a = a := by
  cases a <;> rfl

theorem and_eq_yes_iff (a b : Truth) : a.and b = .yes ↔ a = .yes ∧ b = .yes := by
  cases a <;> cases b <;> simp [and]

theorem or_eq_yes_iff (a b : Truth) : a.or b = .yes ↔ a = .yes ∨ b = .yes := by
  cases a <;> cases b <;> simp [or]

/-- A conjunction is true only where its left side is. -/
theorem left_of_and_eq_yes {a b : Truth} (h : a.and b = .yes) : a = .yes :=
  ((and_eq_yes_iff a b).1 h).1

/-- A disjunction is true exactly where one of the list is. -/
theorem any_eq_yes_iff (ts : List Truth) : any ts = .yes ↔ .yes ∈ ts := by
  induction ts with
  | nil => simp [any]
  | cons t ts ih =>
    show t.or (any ts) = .yes ↔ _
    rw [or_eq_yes_iff, ih, List.mem_cons, eq_comm]

end Truth

/-- The values that a row gives the nodes of conditions which are neither conjunctions nor
disjunctions. A mark makes no difference. -/
structure Valuation where
  atom : Expr → Truth
  atom_mark : ∀ e, atom e.mark = atom e

namespace Expr

variable (v : Valuation)

/-! ## The value of a condition -/

/-- The value of a condition in a row. -/
def truth : Expr → Truth
  | .binary .and left right _ => (truth left).and (truth right)
  | .binary .or left right _ => (truth left).or (truth right)
  | e => v.atom e

@[simp] theorem truth_and (left right : Expr) :
    (left.and right).truth v = (left.truth v).and (right.truth v) := rfl

@[simp] theorem truth_or (left right : Expr) :
    (left.or right).truth v = (left.truth v).or (right.truth v) := rfl

/-- A mark does not change the value. -/
@[simp] theorem truth_mark (e : Expr) : e.mark.truth v = e.truth v := by
  cases e with
  | column c => rfl
  | literal l => rfl
  | foreign w => rfl
  | binary op left right marked =>
    cases op with
    | and => rfl
    | or => rfl
    -- with any other operator the condition is an atom
    | _ => exact v.atom_mark (.binary _ left right marked)

/-- The value of a condition that may be absent; an absent one keeps every row. -/
def truth? : Option Expr → Truth
  | some e => e.truth v
  | none => .yes

/-! ## Joined lists -/

/-- The list stands to the right of a first condition, from which the fold starts. -/
theorem truth_foldl_and (es : List Expr) :
    ∀ e : Expr, (es.foldl and e).truth v = (e.truth v).and (Truth.all (es.map (truth v))) := by
  induction es with
  | nil => exact fun e => (Truth.and_yes _).symm
  | cons e' es ih =>
    intro e
    rw [List.foldl_cons, ih, truth_and, Truth.and_assoc]
    rfl

theorem truth_foldl_or (es : List Expr) :
    ∀ e : Expr, (es.foldl or e).truth v = (e.truth v).or (Truth.any (es.map (truth v))) := by
  induction es with
  | nil => exact fun e => (Truth.or_no _).symm
  | cons e' es ih =>
    intro e
    rw [List.foldl_cons, ih, truth_or, Truth.or_assoc]
    rfl

/-- The conjunction of a list is true where all its conditions are. -/
theorem truth_all? {es : List Expr} {e : Expr} (h : all? es = some e) :
    e.truth v = Truth.all (es.map (truth v)) := by
  cases es with
  | nil => simp [all?, join?] at h
  | cons first rest =>
    obtain rfl : rest.foldl and first = e := Option.some.inj h
    exact truth_foldl_and v rest first

/-- The disjunction of a list is true where one of its conditions is. -/
theorem truth_any? {es : List Expr} {e : Expr} (h : any? es = some e) :
    e.truth v = Truth.any (es.map (truth v)) := by
  cases es with
  | nil => simp [any?, join?] at h
  | cons first rest =>
    obtain rfl : rest.foldl or first = e := Option.some.inj h
    exact truth_foldl_or v rest first

/-- A list is joined to nothing only if it is empty. -/
theorem join?_eq_none_iff (f : Expr → Expr → Expr) (es : List Expr) :
    join? f es = none ↔ es = [] := by
  cases es with
  | nil => simp [join?]
  | cons first rest => simp [join?]

end Expr

end QueryShaping
