import QueryShaping.Json.Basic

/-!
# Conditions of a statement

The conditions of a SELECT statement are trees of columns, literals and binary operators. A part of
a condition that is none of these is carried along as the value that it is written as.

## What this module delivers

- `Column`, `Literal`, `Operator`, `Expr`: the trees.
- `Expr.compare`, `Expr.and`, `Expr.or`, `Expr.like`, `Expr.mark`: building them.
- `Expr.all?`, `Expr.any?`: the conjunction and disjunction of a list, joined from the left.
-/

set_option autoImplicit false

namespace QueryShaping

/-- A column, with the table or alias that it belongs to if that is known. -/
structure Column where
  table : Option String
  name : String
  deriving DecidableEq

/-- A literal of a statement, and a value that a filter compares with. -/
inductive Literal where
  | number (n : Number)
  | text (s : String)
  | null
  deriving DecidableEq

/-- The kinds of literals. -/
inductive Literal.Kind where
  | number
  | text
  | null
  deriving DecidableEq

namespace Literal

/-- Equality of literals, numbers being compared as numbers. -/
def same : Literal → Literal → Bool
  | .number m, .number n => m == n
  | .text s, .text t => s == t
  | .null, .null => true
  | _, _ => false

instance : BEq Literal := ⟨same⟩

/-- The kind of a literal. -/
def kind : Literal → Kind
  | .number _ => .number
  | .text _ => .text
  | .null => .null

/-- Whether a literal is null. -/
def isNull (l : Literal) : Bool := l.kind = .null

/-- A double as a literal; what is no finite number is null. -/
def ofDouble? : Option Double → Literal
  | some x => .number (.double x)
  | none => .null

end Literal

/-- The binary operators of conditions. -/
inductive Operator where
  | equal
  | notEqual
  | is
  | isNot
  | greater
  | less
  | greaterOrEqual
  | lessOrEqual
  | like
  | and
  | or
  deriving DecidableEq

/-- The operator as it is written in a statement. -/
def Operator.text : Operator → String
  | .equal => "="
  | .notEqual => "<>"
  | .is => "IS"
  | .isNot => "IS NOT"
  | .greater => ">"
  | .less => "<"
  | .greaterOrEqual => ">="
  | .lessOrEqual => "<="
  | .like => "LIKE"
  | .and => "AND"
  | .or => "OR"

/-- A condition, or a part of one. -/
inductive Expr where
  | column (c : Column)
  | literal (l : Literal)
  /-- A binary operator with its operands. A marked one stands in parentheses when written out. -/
  | binary (op : Operator) (left right : Expr) (marked : Bool)
  /-- Any other node, as the value that it is written as. -/
  | foreign (v : Json)

namespace Expr

instance : Inhabited Expr := ⟨.literal .null⟩

/-- Equality of conditions, numbers being compared as numbers. -/
def same : Expr → Expr → Bool
  | .column c, .column d => c == d
  | .literal l, .literal m => l == m
  | .binary op l r p, .binary op' l' r' p' => op == op' && same l l' && same r r' && p == p'
  | .foreign v, .foreign w => v == w
  | _, _ => false

instance : BEq Expr := ⟨same⟩

/-! ## Building -/

/-- A binary operator without a mark. -/
def compare (op : Operator) (left right : Expr) : Expr := .binary op left right false

/-- The conjunction of two conditions. -/
def and (left right : Expr) : Expr := compare .and left right

/-- The disjunction of two conditions. -/
def or (left right : Expr) : Expr := compare .or left right

/-- The test whether a text matches a pattern. -/
def like (left right : Expr) : Expr := compare .like left right

/-- Marks a binary operator to stand in parentheses; anything else is left as it is. -/
def mark : Expr → Expr
  | .binary op left right _ => .binary op left right true
  | e => e

/-- Whether an expression is a marked binary operator. -/
def isMarked : Expr → Bool
  | .binary _ _ _ marked => marked
  | _ => false

/-- The operator of a binary expression. -/
def operator? : Expr → Option Operator
  | .binary op _ _ _ => some op
  | _ => none

/-! ## Joining -/

/-- Joins the conditions of a list from the left, if there are any. -/
def join? (f : Expr → Expr → Expr) : List Expr → Option Expr
  | [] => none
  | e :: rest => some (rest.foldl f e)

/-- The conjunction of a list, joined from the left. -/
def all? : List Expr → Option Expr := join? and

/-- The disjunction of a list, joined from the left. -/
def any? : List Expr → Option Expr := join? or

end Expr

end QueryShaping
