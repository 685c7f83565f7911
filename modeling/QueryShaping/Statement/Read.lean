import QueryShaping.Expr.Read
import QueryShaping.Statement.Written

/-!
# Reading statements

## What this module delivers

- `Statement.read` and the readers of the parts of a statement. Statements and tables are written as
  maps only; what they have no field for is carried along.
-/

set_option autoImplicit false

namespace QueryShaping

/-! ## Order -/

/-- Reads a direction as it is written in a statement. -/
def Direction.read : Reading → Source → Except ReadError Direction :=
  Source.readChoice ([Direction.ascending, .descending].map fun d => (d.text, d)) false

namespace OrderEntry

def columnField : Field := .named 0 "expr"
def directionField : Field := .named 1 "type"

/-- The fields of an entry of the order. -/
def outline : Outline := .record "OrderBy" [columnField, directionField]

/-- Reads an entry of the order. -/
def read : Reading → Source → Except ReadError OrderEntry :=
  Record.read outline fun way r =>
    OrderEntry.mk <$> r.required columnField (Column.read way)
      <*> r.required directionField (Direction.read way)

end OrderEntry

/-! ## Window -/

namespace Window

def offsetField : Field := .named 0 "offset"
def countField : Field := .named 1 "count"

/-- A window is a list of two literals. -/
def outline : Outline := ⟨.pair, .pair, [offsetField, countField]⟩

/-- A bound of a window: an integer of 64 bits that is not negative. -/
def bound : Literal → Except ReadError UInt64
  | .number n =>
    match n.toUInt64? with
    | some w => .ok w
    | none => .error (.mismatch (.limitNotNatural n))
  | l => .error (.mismatch (.limitNotNumber l.kind.title))

/-- Reads a window. Both literals are read before the bounds are looked at, the offset first. -/
def read (way : Reading) (src : Source) : Except ReadError Window := do
  let (offset, count) ← Record.readTuple outline (fun way r =>
    Prod.mk <$> r.required offsetField (Literal.read way)
      <*> r.required countField (Literal.read way)) way src
  return ⟨← bound offset, ← bound count⟩

end Window

/-! ## Tables and columns -/

namespace Table

def databaseField : Field := .named 0 "db"
def nameField : Field := .named 1 "table"
def aliasField : Field := .named 2 "as"

/-- The fields of a table. -/
def outline : Outline := .record "TableRef" [databaseField, nameField, aliasField]

/-- Reads a table. -/
def read : Reading → Source → Except ReadError Table :=
  Record.readMap outline fun _ r extra =>
    (Table.mk · · · extra) <$> r.optional databaseField Source.readText
      <*> r.optional nameField Source.readText <*> r.optional aliasField Source.readText

end Table

namespace SelectItem

def columnField : Field := .named 0 "expr"
def aliasField : Field := .named 1 "as"

/-- The fields of a selected column. -/
def outline : Outline := .record "SelectColumn" [columnField, aliasField]

/-- Reads a selected column. -/
def read : Reading → Source → Except ReadError SelectItem :=
  Record.read outline fun way r =>
    SelectItem.mk <$> r.required columnField (Column.read way)
      <*> r.withDefault aliasField none (Source.readOptional Source.readText)

end SelectItem

/-! ## Statements -/

namespace Statement

/-- Reads the kind of a statement; there is only one. -/
def readKind : Reading → Source → Except ReadError Unit :=
  Source.readChoice [("select", ())] false

def kindField : Field := .named 0 "type"
def distinctField : Field := .named 1 "distinct"
def itemsField : Field := .named 2 "columns"
def tablesField : Field := .named 3 "from"
def conditionField : Field := .named 4 "where"
def groupsField : Field := .named 5 "groupby"
def orderField : Field := .named 6 "orderby"
def windowField : Field := .named 7 "limit"

/-- The fields of a statement. -/
def outline : Outline :=
  .record "SelectStatement" [kindField, distinctField, itemsField, tablesField, conditionField,
    groupsField, orderField, windowField]

/-- Reads a statement. -/
def read : Reading → Source → Except ReadError Statement :=
  Record.readMap outline fun way r extra =>
    (fun (_ : Unit) distinct items tables condition groups order window =>
      Statement.mk distinct items tables condition groups order window extra)
      <$> r.required kindField (readKind way)
      <*> r.withDefault distinctField .null (Source.readAny way)
      <*> r.withDefault itemsField [] (Source.readListOrNull SelectItem.read way)
      <*> r.withDefault tablesField [] (Source.readListOrNull Table.read way)
      <*> r.optional conditionField (Expr.read way)
      <*> r.optional groupsField (Source.readList Expr.read way)
      <*> r.optional orderField (Source.readList OrderEntry.read way)
      <*> r.optional windowField (Window.read way)

end Statement

end QueryShaping
