import QueryShaping.Number

/-!
# Values of documents

A `Json` value is a complete value of a document: the form in which statements are written, and in
which parts that have no meaning here are carried along. Members of a map keep the order in which
they are listed.

## What this module delivers

- `Json.insertMember`: a member put into a map whose names ascend; an earlier value of the name is
  replaced. `Json.ofMembers` puts many, so each name occurs once and the last value wins.
- `Json.same`: equality up to the equality of numbers.
-/

set_option autoImplicit false

namespace QueryShaping

/-- A complete value of a document. -/
inductive Json where
  | null
  | bool (b : Bool)
  | number (n : Number)
  | text (s : String)
  | list (items : List Json)
  | map (members : List (String × Json))

namespace Json

instance : Inhabited Json := ⟨.null⟩

/-! ## Maps in normal form -/

/-- Puts a member into a map whose names ascend, in place of an earlier value of the same name. -/
def insertMember (name : String) (value : Json) : List (String × Json) → List (String × Json)
  | [] => [(name, value)]
  | (other, kept) :: rest =>
    if name < other then (name, value) :: (other, kept) :: rest
    else if name = other then (name, value) :: rest
    else (other, kept) :: insertMember name value rest

/-- The members in ascending order of their names, each name once and with its last value. -/
def ofMembers (members : List (String × Json)) : List (String × Json) :=
  members.foldl (fun done (name, value) => insertMember name value done) []

/-! ## Equality -/

mutual
/-- Equality of values, numbers being compared as numbers. Uses auxiliary list forms so the nested
recursion is structural. -/
def same : Json → Json → Bool
  | .null, .null => true
  | .bool a, .bool b => a == b
  | .number m, .number n => m == n
  | .text s, .text t => s == t
  | .list xs, .list ys => sameItems xs ys
  | .map xs, .map ys => sameMembers xs ys
  | _, _ => false
/-- Equality of the items of two lists. -/
def sameItems : List Json → List Json → Bool
  | [], [] => true
  | x :: xs, y :: ys => same x y && sameItems xs ys
  | _, _ => false
/-- Equality of the members of two maps, in the same order. -/
def sameMembers : List (String × Json) → List (String × Json) → Bool
  | [], [] => true
  | (m, x) :: xs, (n, y) :: ys => m == n && same x y && sameMembers xs ys
  | _, _ => false
end

instance : BEq Json := ⟨same⟩

end Json

end QueryShaping
