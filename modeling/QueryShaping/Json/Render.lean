import QueryShaping.Json.Basic
import QueryShaping.Text.Quoted

/-!
# The written form of values

A value is written on one line without blanks, or over several lines with two blanks of indent for
each level. Both come from one function, which a `Style` tells what stands around the items.

## What this module delivers

- `Json.render`: the characters of a value in a style.
- `Json.compact`, `Json.pretty`: the texts in the two styles.
-/

set_option autoImplicit false

namespace QueryShaping

namespace Json

/-- What stands around the items of a list and the members of a map. -/
structure Style where
  /-- What precedes an item at a level of nesting. -/
  lineBreak : Nat → List Char
  /-- What separates a name from its value. -/
  colon : List Char

/-- No blanks anywhere. -/
def Style.compact : Style := ⟨fun _ => [], [':']⟩

/-- One item a line, two blanks of indent a level. -/
def Style.pretty : Style := ⟨fun level => '\n' :: List.replicate (2 * level) ' ', [':', ' ']⟩

/-- What precedes the closing bracket: nothing where there are no items. -/
def Style.closing (style : Style) (level : Nat) (isEmpty : Bool) : List Char :=
  if isEmpty then [] else style.lineBreak level

/-- The comma after an item that is not the last. -/
def comma (isLast : Bool) : List Char := if isLast then [] else [',']

mutual
/-- The characters of a value that stands at a level of nesting. Uses auxiliary list forms so the
nested recursion is structural. -/
def render (style : Style) (level : Nat) : Json → List Char
  | .null => ['n', 'u', 'l', 'l']
  | .bool true => ['t', 'r', 'u', 'e']
  | .bool false => ['f', 'a', 'l', 's', 'e']
  | .number n => n.toChars
  | .text s => Quoted.encode s
  | .list items =>
    '[' :: (renderItems style (level + 1) items ++ style.closing level items.isEmpty ++ [']'])
  | .map members =>
    '\x7b' :: (renderMembers style (level + 1) members
      ++ style.closing level members.isEmpty ++ ['\x7d'])
/-- The items of a list at a level of nesting. -/
def renderItems (style : Style) (level : Nat) : List Json → List Char
  | [] => []
  | item :: rest =>
    style.lineBreak level ++ render style level item ++ comma rest.isEmpty
      ++ renderItems style level rest
/-- The members of a map at a level of nesting. -/
def renderMembers (style : Style) (level : Nat) : List (String × Json) → List Char
  | [] => []
  | (name, value) :: rest =>
    style.lineBreak level ++ Quoted.encode name ++ style.colon ++ render style level value
      ++ comma rest.isEmpty ++ renderMembers style level rest
end

/-- The text of a value on one line. -/
def compact (v : Json) : String := String.ofList (render .compact 0 v)

/-- The text of a value over several lines. -/
def pretty (v : Json) : String := String.ofList (render .pretty 0 v)

end Json

end QueryShaping
