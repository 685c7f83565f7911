import QueryShaping.Statement.Basic

/-!
# Requests

A request says what a caller wants of a statement: an order, a page, a filter and a search. Each
part may be left out.

## What this module delivers

- `Request`: the parts of a request; the request builders append to them or replace them.
- `Condition`: one test of a filter, on a single attribute or on a key of several attributes.
- `Comparison.operator`: the operator that a comparison becomes.
- `Request.searchText?`: the text to search for, if there is a search.
-/

set_option autoImplicit false

namespace QueryShaping

/-- A key of the order: an attribute and its direction. -/
structure SortKey where
  name : String
  direction : Direction
  deriving DecidableEq

/-- The comparisons that a filter can ask for. -/
inductive Comparison where
  | equal
  | notEqual
  | greater
  | greaterOrEqual
  | less
  | lessOrEqual
  deriving DecidableEq

namespace Comparison

/-- The name of a comparison in requests. -/
def name : Comparison → String
  | .equal => "equal"
  | .notEqual => "notEqual"
  | .greater => "greater"
  | .greaterOrEqual => "greaterOrEqual"
  | .less => "less"
  | .lessOrEqual => "lessOrEqual"

/-- The operator that a comparison becomes. Equality with null is tested by `IS`. -/
def operator (withNull : Bool) : Comparison → Operator
  | .equal => if withNull then .is else .equal
  | .notEqual => if withNull then .isNot else .notEqual
  | .greater => .greater
  | .greaterOrEqual => .greaterOrEqual
  | .less => .less
  | .lessOrEqual => .lessOrEqual

end Comparison

/-- What a condition tests: one attribute, or several together as a key. -/
inductive Attribute where
  | single (name : String)
  | composite (names : List String)
  deriving DecidableEq

/-- The attribute as messages call it: the names of a key are joined with commas. -/
def Attribute.title : Attribute → String
  | .single name => name
  | .composite names => String.intercalate "," names

/-- What a condition compares with: one value, or one tuple of values for each accepted key. -/
inductive Operand where
  | scalar (value : Literal)
  | tuples (tuples : List (List Literal))
  deriving DecidableEq

/-- One test of a filter. -/
structure Condition where
  target : Attribute
  comparison : Comparison
  operand : Operand
  deriving DecidableEq

/-- A positive word of 32 bits: a page size or a page number. -/
structure Positive where
  val : UInt32
  ne_zero : val ≠ 0
  deriving DecidableEq

/-- The word, unless it is zero. -/
def Positive.ofUInt32? (n : UInt32) : Option Positive :=
  if h : n = 0 then none else some ⟨n, h⟩

/-- The positive word that an integer below `2 ^ 32` is. -/
def Positive.ofInt? (n : Int) : Option Positive :=
  if 0 < n ∧ n < 4294967296 then ofUInt32? (UInt32.ofNat n.toNat) else none

/-- What a caller wants of a statement. -/
structure Request where
  /-- The keys of the order, the first one foremost. -/
  order : List SortKey
  /-- The size of a page. -/
  limit : Option Positive
  /-- The number of the page, from one. -/
  page : Option Positive
  /-- Groups of conditions: a row has to pass all conditions of one group. -/
  filter : List (List Condition)
  /-- The attributes that are searched. -/
  searchable : List String
  /-- The text to search for. -/
  search : Option String
  /-- A limit for each group of rows, which is not supported. -/
  limitPer : Option Json

namespace Request

/-- The request that asks for nothing. -/
def empty : Request := ⟨[], none, none, [], [], none, none⟩

/-- Adds a key to the order. -/
def orderBy (r : Request) (key : SortKey) : Request := { r with order := r.order ++ [key] }

/-- Sets the page size; zero clears it. -/
def withLimit (r : Request) (n : UInt32) : Request := { r with limit := Positive.ofUInt32? n }

/-- Sets the page number; zero clears it. -/
def withPage (r : Request) (n : UInt32) : Request := { r with page := Positive.ofUInt32? n }

/-- Adds a group of conditions to the filter. -/
def withGroup (r : Request) (group : List Condition) : Request :=
  { r with filter := r.filter ++ [group] }

/-- Sets the attributes to search and the text to search for. -/
def withSearch (r : Request) (searchable : List String) (text : String) : Request :=
  { r with searchable := searchable, search := some text }

/-- Asks for a limit for each group of rows. -/
def withLimitPer (r : Request) (value : Json) : Request := { r with limitPer := some value }

/-- The text to search for; an empty one asks for no search. -/
def searchText? (r : Request) : Option String := r.search.filter fun text => !text.isEmpty

end Request

end QueryShaping
