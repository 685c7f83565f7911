import QueryShaping.Shaping.Pattern
import QueryShaping.Shaping.Rejection
import QueryShaping.Shaping.Resolver

/-!
# Conditions of a request

A filter becomes the disjunction of its groups, each the conjunction of its conditions; a search
becomes the disjunction of one pattern test for each searched attribute. All are joined from the
left. A key of several attributes becomes the disjunction of its tuples, which is always marked, and
a search of several attributes is marked where it stands beside a filter.

## What this module delivers

- `Resolver.condition`, `Resolver.group`, `Resolver.filter?`: what the parts of a filter become, or
  why they are rejected. The first cause in the order of the filter wins.
- `Resolver.search?`: what a search becomes.
- `Request.condition?`: both together.
-/

set_option autoImplicit false

namespace QueryShaping

namespace Resolver

/-! ## Filters -/

/-- The comparison of a column with a value. -/
def comparison (column : Column) (c : Comparison) (value : Literal) : Expr :=
  .compare (c.operator value.isNull) (.column column) (.literal value)

/-- The test that the columns of a key have the values of a tuple. -/
def tuple (names : List String) (columns : List Column) (values : List Literal) :
    Except Rejection Expr :=
  if values.length ≠ columns.length then
    .error (.arity (.composite names) columns.length values.length)
  else
    match Expr.all? (List.zipWith (comparison · .equal ·) columns values) with
    | some e => .ok e
    | none => .error (.emptyTuple names)

/-- The test that a key has the values of one of the tuples. -/
def key (r : Resolver) (names : List String) (c : Comparison) (tuples : List (List Literal)) :
    Except Rejection Expr :=
  if c ≠ .equal then .error (.keyComparison c names)
  else if names.isEmpty then .error .emptyKey
  else do
    match Expr.any? (← tuples.mapM (tuple names (names.map r.resolve))) with
    | some e => return e.mark
    | none => .error (.noTuples names)

/-- What a condition becomes. -/
def condition (r : Resolver) (c : Condition) : Except Rejection Expr :=
  match c.target, c.operand with
  | .single name, .scalar value => .ok (comparison (r.resolve name) c.comparison value)
  | .composite names, .tuples tuples => r.key names c.comparison tuples
  | .single _, .tuples tuples => .error (.arity c.target 1 tuples.length)
  | .composite names, .scalar _ => .error (.arity c.target names.length 1)

/-- What a group of conditions becomes. -/
def group (r : Resolver) (conditions : List Condition) : Except Rejection Expr := do
  match Expr.all? (← conditions.mapM r.condition) with
  | some e => return e
  | none => .error .emptyGroup

/-- What a filter becomes: nothing, where it has no groups. -/
def filter? (r : Resolver) (groups : List (List Condition)) : Except Rejection (Option Expr) :=
  Expr.any? <$> groups.mapM r.group

/-! ## Searches -/

/-- The test that a column contains a text. -/
def contains (column : Column) (text : String) : Expr :=
  .like (.column column) (.literal (.text (Pattern.containing text)))

/-- What a search becomes: nothing, where no attribute is searched. -/
def search? (r : Resolver) (searchable : List String) (text : String) : Option Expr :=
  Expr.any? (searchable.map fun name => contains (r.resolve name) text)

end Resolver

/-! ## Both together -/

/-- Marks a disjunction, and leaves any other condition as it is. -/
def Expr.markOr (e : Expr) : Expr := if e.operator? = some .or then e.mark else e

/-- The conjunction of what a filter and what a search became. -/
def Expr.filterAndSearch : Option Expr → Option Expr → Option Expr
  | some filter, some search => some (filter.and search.markOr)
  | filter, search => filter.or search

/-- The condition that a request asks for, if it asks for any. -/
def Request.condition? (req : Request) (r : Resolver) : Except Rejection (Option Expr) := do
  let filter ← r.filter? req.filter
  return Expr.filterAndSearch filter (req.searchText?.bind (r.search? req.searchable))

end QueryShaping
