import QueryShaping.Expr.Basic

/-!
# SELECT statements

## What this module delivers

- `Statement`: a SELECT statement with its columns, tables, condition, order and window of rows.
  Parts that have no meaning here are carried along as the values that they are written as.
- `Direction.ofText?`: a direction by its name in any letter case.
- `Table.qualifier`: the name that columns of a table are qualified with.
-/

set_option autoImplicit false

namespace QueryShaping

/-- A direction of sorting. -/
inductive Direction where
  | ascending
  | descending
  deriving DecidableEq

/-- The direction as it is written in a statement. -/
def Direction.text : Direction → String
  | .ascending => "ASC"
  | .descending => "DESC"

/-- The direction that a name in any letter case denotes. -/
def Direction.ofText? (s : String) : Option Direction :=
  let name := s.toList.map Char.toLower
  if name = ['a', 's', 'c'] then some .ascending
  else if name = ['d', 'e', 's', 'c'] then some .descending
  else none

/-- An entry of the order of a statement. -/
structure OrderEntry where
  column : Column
  direction : Direction
  deriving DecidableEq

/-- The rows that a statement returns: so many are skipped, and at most so many follow. -/
structure Window where
  offset : UInt64
  count : UInt64
  deriving DecidableEq

/-- A table that a statement selects from. -/
structure Table where
  database : Option String
  name : Option String
  aliasName : Option String
  /-- The members without meaning here, in normal form. -/
  extra : List (String × Json)

/-- A selected column. -/
structure SelectItem where
  column : Column
  aliasName : Option String
  deriving DecidableEq

/-- A SELECT statement. -/
structure Statement where
  distinct : Json
  items : List SelectItem
  tables : List Table
  condition : Option Expr
  groups : Option (List Expr)
  order : Option (List OrderEntry)
  window : Option Window
  /-- The members without meaning here, in normal form. -/
  extra : List (String × Json)

namespace Table

/-- A table with a name and perhaps an alias. -/
def named (name : String) (aliasName : Option String) : Table := ⟨none, some name, aliasName, []⟩

/-- The name that columns of the table are qualified with: its alias, else its name. -/
def qualifier (t : Table) : Option String := t.aliasName.or t.name

/-- Equality of tables, numbers being compared as numbers. -/
def same (t u : Table) : Bool :=
  t.database == u.database && t.name == u.name && t.aliasName == u.aliasName && t.extra == u.extra

instance : BEq Table := ⟨same⟩

end Table

namespace Statement

/-- The statement that selects nothing from nowhere. -/
def empty : Statement := ⟨.null, [], [], none, none, none, none, []⟩

/-- A statement that selects from one table. -/
def ofTable (t : Table) : Statement := { empty with tables := [t] }

/-- Selects one more column. -/
def select (st : Statement) (item : SelectItem) : Statement :=
  { st with items := st.items ++ [item] }

/-- The table that columns belong to by default: the first one. -/
def primaryTable? (st : Statement) : Option Table := st.tables.head?

/-- Equality of statements, numbers being compared as numbers. -/
def same (s t : Statement) : Bool :=
  s.distinct == t.distinct && s.items == t.items && s.tables == t.tables
    && s.condition == t.condition && s.groups == t.groups && s.order == t.order
    && s.window == t.window && s.extra == t.extra

instance : BEq Statement := ⟨same⟩

end Statement

end QueryShaping
