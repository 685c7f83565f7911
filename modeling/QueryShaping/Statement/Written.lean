import QueryShaping.Expr.Written
import QueryShaping.Statement.Basic

/-!
# The written form of statements

## What this module delivers

- `Statement.toJson` and the written forms of the parts of a statement. Members stand in a fixed
  order, parts that are absent are written as null, and the members without meaning follow last.
-/

set_option autoImplicit false

namespace QueryShaping

/-- A list of values, or null where there is none. -/
def Json.ofList? {α : Type} (write : α → Json) : Option (List α) → Json
  | some items => .list (items.map write)
  | none => .null

/-- The written form of an entry of the order. -/
def OrderEntry.toJson (e : OrderEntry) : Json :=
  .map [("expr", e.column.toJson), ("type", .text e.direction.text)]

/-- An unsigned word as a literal. -/
def Literal.ofUInt64 (n : UInt64) : Literal := .number (.int (.ofUInt64 n))

/-- The written form of a window: the literals of its offset and its count. -/
def Window.toJson (w : Window) : Json :=
  .list [(Literal.ofUInt64 w.offset).toJson, (Literal.ofUInt64 w.count).toJson]

/-- The written form of a table. -/
def Table.toJson (t : Table) : Json :=
  .map ([("db", .ofText? t.database), ("table", .ofText? t.name), ("as", .ofText? t.aliasName)]
    ++ t.extra)

/-- The written form of a selected column. -/
def SelectItem.toJson (item : SelectItem) : Json :=
  .map [("expr", item.column.toJson), ("as", .ofText? item.aliasName)]

/-- The written form of a statement. -/
def Statement.toJson (st : Statement) : Json :=
  .map ([("type", .text "select"),
    ("distinct", st.distinct),
    ("columns", .list (st.items.map SelectItem.toJson)),
    ("from", .list (st.tables.map Table.toJson)),
    ("where", (st.condition.map Expr.toJson).getD .null),
    ("groupby", .ofList? Expr.toJson st.groups),
    ("orderby", .ofList? OrderEntry.toJson st.order),
    ("limit", (st.window.map Window.toJson).getD .null)] ++ st.extra)

end QueryShaping
