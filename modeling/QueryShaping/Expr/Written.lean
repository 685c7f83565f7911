import QueryShaping.Expr.Basic
import QueryShaping.Json.Render

/-!
# The written form of conditions

## What this module delivers

- `Column.toJson`, `Literal.toJson`, `Expr.toJson`: the values that the parts of conditions are
  written as. Columns and binary operators carry their kind in the member `type`; the mark is
  written only where it is set.
-/

set_option autoImplicit false

namespace QueryShaping

/-- A text, or null where there is none. -/
def Json.ofText? : Option String → Json
  | some s => .text s
  | none => .null

/-- The written form of a column. -/
def Column.toJson (c : Column) : Json :=
  .map [("type", .text "column_ref"), ("table", .ofText? c.table), ("column", .text c.name)]

/-- The name of a kind of literals in a statement. -/
def Literal.Kind.name : Literal.Kind → String
  | .number => "number"
  | .text => "string"
  | .null => "null"

/-- The value of a literal alone. -/
def Literal.value : Literal → Json
  | .number n => .number n
  | .text s => .text s
  | .null => .null

/-- The written form of a literal. -/
def Literal.toJson (l : Literal) : Json :=
  .map [("type", .text l.kind.name), ("value", l.value)]

/-- The member that holds the mark, if it is set. -/
def Expr.markMember (marked : Bool) : List (String × Json) :=
  if marked then [("parenthesized", .bool true)] else []

/-- The written form of a condition. -/
def Expr.toJson : Expr → Json
  | .column c => c.toJson
  | .literal l => l.toJson
  | .binary op left right marked =>
    .map ([("type", .text "binary_expr"), ("operator", .text op.text), ("left", left.toJson),
      ("right", right.toJson)] ++ markMember marked)
  | .foreign v => v

end QueryShaping
