import QueryShaping.Expr.Written
import QueryShaping.Source.Record

/-!
# Reading conditions

A node of a condition is taken for the first that its fields allow: a column, a literal, a binary
operator. The member `type` decides only among literals. What allows none of the three is carried
along, so any value can be read as a condition.

## What this module delivers

- `Column.read`, `Literal.read`, `Operator.read`: the readers of the parts.
- `Expr.readBinary`: a reader of binary operators alone.
- `Expr.ofSource`: the condition that a well written value is.
- `Expr.read`: the same, for a value that may be faulty.
-/

set_option autoImplicit false

namespace QueryShaping

/-! ## Columns -/

namespace Column

def tableField : Field := .named 0 "table"
def nameField : Field := .named 1 "column"

/-- The fields of a column. -/
def outline : Outline := .record "ColumnRef" [tableField, nameField]

/-- Reads a column. -/
def read : Reading → Source → Except ReadError Column :=
  Record.read outline fun _ r =>
    Column.mk <$> r.optional tableField Source.readText <*> r.required nameField Source.readText

end Column

/-! ## Literals -/

namespace Literal

/-- The kinds by their names in a statement. -/
def Kind.choices : List (String × Kind) :=
  [Kind.number, Kind.text, Kind.null].map fun k => (k.name, k)

/-- The kind as messages call it. -/
def Kind.title : Kind → String
  | .number => "Number"
  | .text => "String"
  | .null => "Null"

/-- Reads a kind. -/
def Kind.read : Reading → Source → Except ReadError Kind := Source.readChoice choices false

def kindField : Field := .named 0 "type"
def valueField : Field := .named 1 "value"

/-- The fields of a literal. -/
def outline : Outline := .record "RawLiteral" [kindField, valueField]

/-- The literal with a kind and a value, if the value is of that kind. A null takes any value. -/
def ofValue (kind : Kind) (value : Json) : Except ReadError Literal :=
  match kind, value with
  | .number, .number n => .ok (.number n)
  | .text, .text s => .ok (.text s)
  | .null, _ => .ok .null
  | kind, value => .error (.mismatch (.wrongPayload kind.title value))

/-- Reads a literal. -/
def read (way : Reading) (src : Source) : Except ReadError Literal := do
  let (kind, value) ← Record.read outline (fun way r =>
    Prod.mk <$> r.required kindField (Kind.read way)
      <*> r.withDefault valueField .null (Source.readAny way)) way src
  ofValue kind value

/-- The literal that a bare value is: null, a number or a text. -/
def ofBare? : Json → Option Literal
  | .null => some .null
  | .number n => some (.number n)
  | .text s => some (.text s)
  | _ => none

/-- Reads a bare value as a literal. -/
def readBare (way : Reading) (src : Source) : Except ReadError Literal := do
  match ofBare? (← src.readAny way) with
  | some l => return l
  | none => .error (.mismatch (.noAlternative "Value"))

end Literal

/-! ## Binary operators -/

/-- The operators by their written forms. -/
def Operator.choices : List (String × Operator) :=
  [Operator.equal, .notEqual, .is, .isNot, .greater, .less, .greaterOrEqual, .lessOrEqual, .like,
    .and, .or].map fun op => (op.text, op)

/-- Reads an operator. -/
def Operator.read : Reading → Source → Except ReadError Operator :=
  Source.readChoice choices false

namespace Expr

def operatorField : Field := .named 0 "operator"
def leftField : Field := .named 1 "left"
def rightField : Field := .named 2 "right"

/-- The mark goes by three names. -/
def markField : Field := ⟨3, "parenthesized", ["paren", "parentheses"]⟩

/-- The fields of a binary operator. -/
def binaryOutline : Outline :=
  .record "BinaryExpr" [operatorField, leftField, rightField, markField]

/-- Reads an operand: the condition that stands for the value at its place. -/
def readOperand (parts : List Expr) (way : Reading) (place : Nat) (src : Source) :
    Except ReadError Expr := do
  src.readWhole way
  return parts[place]?.getD default

/-- Reads a binary operator. The parts are the conditions that the values inside the node stand for,
in the order of the text. -/
def readBinaryOf (parts : List Expr) : Reading → Source → Except ReadError Expr :=
  Record.read binaryOutline fun way r =>
    Expr.binary <$> r.required operatorField (Operator.read way)
      <*> r.requiredAt leftField (readOperand parts way)
      <*> r.requiredAt rightField (readOperand parts way)
      <*> r.withDefault markField false Source.readBool

/-! ## Any node -/

/-- The condition that a node is, given the conditions inside it. -/
def classify (parts : List Expr) (src : Source) : Expr :=
  match Column.read .stored src with
  | .ok c => .column c
  | .error _ =>
    match Literal.read .stored src with
    | .ok l => .literal l
    | .error _ =>
      match readBinaryOf parts .stored src with
      | .ok e => e
      | .error _ => .foreign src.toJson

mutual
/-- The condition that a well written value is. Uses auxiliary list forms so the nested recursion is
structural. -/
def ofSource : Source → Expr
  | .atom a => classify [] (.atom a)
  | .list items fin => classify (ofItems items) (.list items fin)
  | .map members fin => classify (ofMembers members) (.map members fin)
  | .absent reason => classify [] (.absent reason)
/-- The conditions that the items of a list are. -/
def ofItems : List Source → List Expr
  | [] => []
  | item :: rest => ofSource item :: ofItems rest
/-- The conditions that the members of a map are. -/
def ofMembers : List (Quoted × Source) → List Expr
  | [] => []
  | (_, value) :: rest => ofSource value :: ofMembers rest
end

/-- The conditions that the values inside a node are, in the order of the text. -/
def partsOf : Source → List Expr
  | .list items _ => ofItems items
  | .map members _ => ofMembers members
  | _ => []

/-- Reads a binary operator. -/
def readBinary (way : Reading) (src : Source) : Except ReadError Expr :=
  readBinaryOf (partsOf src) way src

/-- Reads any value as a condition. -/
def read (way : Reading) (src : Source) : Except ReadError Expr := do
  src.readWhole way
  return ofSource src

end Expr

end QueryShaping
