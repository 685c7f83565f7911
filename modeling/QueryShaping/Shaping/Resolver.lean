import QueryShaping.Statement.Basic

/-!
# Attributes and columns

The attributes of a request are names that a caller knows: the aliases of the selected columns, and
beside them the columns of the first table.

## What this module delivers

- `Resolver.ofStatement`: what the names mean in a statement. Of several columns with one alias the
  first has it.
- `Resolver.resolve`: the column that an attribute denotes.
-/

set_option autoImplicit false

namespace QueryShaping

/-- What the attributes of a request denote. -/
structure Resolver where
  /-- The aliases that were declared, each once. -/
  aliases : List (String × Column)
  /-- The qualifier of the columns of the first table. -/
  qualifier : Option String
  deriving DecidableEq

namespace Resolver

/-- Declares an alias, unless it was declared before. -/
def declare (aliases : List (String × Column)) (item : SelectItem) : List (String × Column) :=
  match item.aliasName with
  | none => aliases
  | some name =>
    if (aliases.lookup name).isSome then aliases else aliases ++ [(name, item.column)]

/-- What attributes denote in a statement. -/
def ofStatement (st : Statement) : Resolver where
  aliases := st.items.foldl declare []
  qualifier := st.primaryTable?.bind Table.qualifier

/-- The column that an attribute denotes: that of the alias, or a column of the first table. -/
def resolve (r : Resolver) (name : String) : Column :=
  (r.aliases.lookup name).getD ⟨r.qualifier, name⟩

end Resolver

end QueryShaping
