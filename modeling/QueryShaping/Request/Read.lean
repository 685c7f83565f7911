import QueryShaping.Expr.Read
import QueryShaping.Request.Basic

/-!
# Reading requests

## What this module delivers

- `Request.read` and the readers of the parts of a request.
- `Attribute.read`, `Operand.read`: readers of values that are told apart by their shape. Such a
  value is read to its end before its shape is looked at.
-/

set_option autoImplicit false

namespace QueryShaping

/-! ## Keys of the order -/

namespace SortKey

def nameField : Field := .named 0 "attribute"
def directionField : Field := .named 1 "direction"

/-- The fields of a key of the order. -/
def outline : Outline := .record "OrderSpec" [nameField, directionField]

/-- Reads a direction by its name in any letter case. -/
def readDirection (src : Source) : Except ReadError Direction := do
  let name ← src.readText
  match Direction.ofText? name with
  | some d => return d
  | none => .error (.mismatch (.unknownDirection name))

/-- Reads a key of the order. -/
def read : Reading → Source → Except ReadError SortKey :=
  Record.read outline fun _ r =>
    SortKey.mk <$> r.required nameField Source.readText
      <*> r.required directionField readDirection

end SortKey

/-! ## Conditions -/

/-- The comparisons by their names. -/
def Comparison.choices : List (String × Comparison) :=
  [Comparison.equal, .notEqual, .greater, .greaterOrEqual, .less, .lessOrEqual].map
    fun c => (c.name, c)

/-- Reads a comparison. -/
def Comparison.read : Reading → Source → Except ReadError Comparison :=
  Source.readChoice choices true

/-- The texts of a list that holds nothing else. -/
def Attribute.namesOf? (items : List Json) : Option (List String) :=
  items.mapM fun
    | .text s => some s
    | _ => none

/-- The attribute that a value denotes: a name, or a list of names. -/
def Attribute.ofJson? : Json → Option Attribute
  | .text s => some (.single s)
  | .list items => .composite <$> namesOf? items
  | _ => none

/-- Reads an attribute. -/
def Attribute.read (way : Reading) (src : Source) : Except ReadError Attribute := do
  match ofJson? (← src.readAny way) with
  | some a => return a
  | none => .error (.mismatch (.noAlternative "Attribute"))

/-- The tuple of bare values that a list is. -/
def Operand.tupleOf? : Json → Option (List Literal)
  | .list items => items.mapM Literal.ofBare?
  | _ => none

/-- The operand that a value denotes: a bare value, or a list of lists of bare values. -/
def Operand.ofJson? : Json → Option Operand
  | .list items => .tuples <$> items.mapM tupleOf?
  | v => .scalar <$> Literal.ofBare? v

/-- Reads an operand. -/
def Operand.read (way : Reading) (src : Source) : Except ReadError Operand := do
  match ofJson? (← src.readAny way) with
  | some o => return o
  | none => .error (.mismatch (.noAlternative "FilterValue"))

namespace Condition

def targetField : Field := .named 0 "attribute"
def comparisonField : Field := .named 1 "operator"
def operandField : Field := .named 2 "value"

/-- The fields of a condition. -/
def outline : Outline :=
  .record "FilterCondition" [targetField, comparisonField, operandField]

/-- Reads a condition. -/
def read : Reading → Source → Except ReadError Condition :=
  Record.read outline fun way r =>
    Condition.mk <$> r.required targetField (Attribute.read way)
      <*> r.required comparisonField (Comparison.read way)
      <*> r.required operandField (Operand.read way)

end Condition

/-! ## Requests -/

/-- Reads a positive word. -/
def Positive.read : Source → Except ReadError Positive
  | .atom (.number (.int n)) =>
    match ofInt? n.val with
    | some p => .ok p
    | none => .error (.mismatch (.wrongValue (.number (.int n)) .positive))
  | src => .error (src.refuse .positive)

namespace Request

def orderField : Field := .named 0 "order"
def limitField : Field := .named 1 "limit"
def pageField : Field := .named 2 "page"
def filterField : Field := .named 3 "filter"
def searchableField : Field := .named 4 "searchable"
def searchField : Field := .named 5 "search"
def limitPerField : Field := .named 6 "limitPer"

/-- The fields of a request. -/
def outline : Outline :=
  .record "QueryConfig" [orderField, limitField, pageField, filterField, searchableField,
    searchField, limitPerField]

/-- Reads a request. All its fields may be missing or null. -/
def read : Reading → Source → Except ReadError Request :=
  Record.read outline fun way r =>
    Request.mk
      <$> r.withDefault orderField [] (Source.readListOrNull SortKey.read way)
      <*> r.withDefault limitField none (Source.readOptional Positive.read)
      <*> r.withDefault pageField none (Source.readOptional Positive.read)
      <*> r.withDefault filterField []
        (Source.readListOrNull (Source.readList Condition.read) way)
      <*> r.withDefault searchableField []
        (Source.readListOrNull (fun _ => Source.readText) way)
      <*> r.withDefault searchField none (Source.readOptional Source.readText)
      <*> r.withDefault limitPerField none (Source.readOptional (Source.readAny way))

end Request

end QueryShaping
