import QueryShaping.ReadError

/-!
# Well written values

Whoever stores a value, or looks for a meaning by trying several, first reads it to its end. That
meets every fault of writing in it, in the order of the text, and refuses nesting beyond a given
room. Whoever ignores a value passes over it more lightly: numbers need no value, texts no meaning
and nesting no room.

## What this module delivers

- `Source.found`: what a value is, as far as its first token tells.
- `Source.check`: reading a value to its end.
- `Source.ignore`: passing over a value.
- `Source.toJson`: the value that a well written tree stands for, in normal form.
-/

set_option autoImplicit false

namespace QueryShaping

/-! ## Faults as causes -/

/-- The cause that a fault of a literal is. -/
def TextFault.error : TextFault → ReadError
  | .cutOff => .unfinished .text
  | .controlCharacter => .malformed .controlCharacter
  | .invalidEscape => .malformed .badEscape
  | .loneUnit => .malformed .loneUnit
  | .unpairedUnit => .malformed .unpairedUnit

/-- The text of a literal, or why it has none. -/
def Quoted.check : Quoted → Except ReadError String
  | .text s => .ok s
  | .illFormed fault => .error fault.error
  | .broken fault _ => .error fault.error

/-- Passing over a literal. -/
def Quoted.ignore : Quoted → Except ReadError Unit
  | .broken _ bare => .error bare.error
  | _ => .ok ()

/-- The cause that a fault of a number is. -/
def NumberFault.error : NumberFault → ReadError
  | .cutOff => .unfinished .value
  | .malformed => .malformed .badNumber
  | .tooLarge => .malformed .numberTooLarge

/-- Passing over a number with a fault. -/
def NumberFault.ignore : NumberFault → Except ReadError Unit
  | .tooLarge => .ok ()
  | _ => .error (.malformed .badNumber)

/-- The cause that a fault of a name is. -/
def NameFault.error : NameFault → ReadError
  | .cutOff => .unfinished .value
  | .misspelt => .malformed .misspeltName

/-- What an atom is, or why it is nothing. -/
def Atom.found : Atom → Except ReadError Found
  | .null => .ok .null
  | .bool b => .ok (.bool b)
  | .number n => .ok (.number n)
  | .text q => .text <$> q.check
  | .badNumber fault => .error fault.error
  | .badName fault => .error fault.error

/-- Passing over an atom. -/
def Atom.ignore : Atom → Except ReadError Unit
  | .text q => q.ignore
  | .badNumber fault => fault.ignore
  | .badName fault => .error fault.error
  | _ => .ok ()

/-- The cause that a missing value is. -/
def Absence.error : Absence → ReadError
  | .cutOff => .unfinished .value
  | .unexpected => .malformed .noValue
  | .cutOffBeforeColon => .unfinished .map
  | .noColon => .malformed .noColon

/-- Reading the end of a list. -/
def ListEnd.check : ListEnd → Except ReadError Unit
  | .closed => .ok ()
  | .cutOff => .error (.unfinished .list)
  | .trailingComma => .error (.malformed .trailingComma)
  | .noSeparator => .error (.malformed .noCommaOrBracket)

/-- Passing over the end of a list. -/
def ListEnd.ignore : ListEnd → Except ReadError Unit
  | .trailingComma => .error (.malformed .noValue)
  | fin => fin.check

/-- Reading the end of a map. -/
def MapEnd.check : MapEnd → Except ReadError Unit
  | .closed => .ok ()
  | .cutOff => .error (.unfinished .map)
  | .cutOffAfterComma => .error (.unfinished .value)
  | .trailingComma => .error (.malformed .trailingComma)
  | .noSeparator => .error (.malformed .noCommaOrBrace)
  | .noName _ => .error (.malformed .nameNotText)

/-- Passing over the end of a map. -/
def MapEnd.ignore : MapEnd → Except ReadError Unit
  | .cutOffAfterComma => .error (.unfinished .map)
  | .trailingComma => .error (.malformed .nameNotText)
  | fin => fin.check

namespace Source

/-! ## The first token -/

/-- What a value is. The parts of lists and maps are not looked at. -/
def found : Source → Except ReadError Found
  | .atom a => a.found
  | .list _ _ => .ok .list
  | .map _ _ => .ok .map
  | .absent reason => .error reason.error

/-- Why a value is refused where something else is wanted: a fault of writing in its first token, or
its type. -/
def refuse (wanted : Wanted) (src : Source) : ReadError :=
  match src.found with
  | .ok found => .mismatch (.wrongType found wanted)
  | .error e => e

/-! ## Whole values -/

mutual
/-- Reads a value to its end, with room for so many levels of nesting. Uses auxiliary list forms so
the nested recursion is structural. -/
def check : Nat → Source → Except ReadError Unit
  | _, .atom a => a.found.map fun _ => ()
  | 0, .list _ _ => .error (.malformed .tooDeep)
  | room + 1, .list items fin => do
    checkItems room items
    fin.check
  | 0, .map _ _ => .error (.malformed .tooDeep)
  | room + 1, .map members fin => do
    checkMembers room members
    fin.check
  | _, .absent reason => .error reason.error
/-- Reads the items of a list to their end. -/
def checkItems : Nat → List Source → Except ReadError Unit
  | _, [] => .ok ()
  | room, item :: rest => do
    check room item
    checkItems room rest
/-- Reads the members of a map to their end. -/
def checkMembers : Nat → List (Quoted × Source) → Except ReadError Unit
  | _, [] => .ok ()
  | room, (name, value) :: rest => do
    let _ ← name.check
    check room value
    checkMembers room rest
end

mutual
/-- Passes over a value. Uses auxiliary list forms so the nested recursion is structural. -/
def ignore : Source → Except ReadError Unit
  | .atom a => a.ignore
  | .list items fin => do
    ignoreItems items
    fin.ignore
  | .map members fin => do
    ignoreMembers members
    fin.ignore
  | .absent reason => .error reason.error
/-- Passes over the items of a list. -/
def ignoreItems : List Source → Except ReadError Unit
  | [] => .ok ()
  | item :: rest => do
    ignore item
    ignoreItems rest
/-- Passes over the members of a map. -/
def ignoreMembers : List (Quoted × Source) → Except ReadError Unit
  | [] => .ok ()
  | (name, value) :: rest => do
    name.ignore
    ignore value
    ignoreMembers rest
end

/-! ## The value of a tree -/

/-- The value of an atom, null if it is faulty. -/
def atomValue : Atom → Json
  | .bool b => .bool b
  | .number n => .number n
  | .text (.text s) => .text s
  | _ => .null

mutual
/-- The value that a well written tree stands for. The members of maps are in normal form at every
depth. Uses auxiliary list forms so the nested recursion is structural. -/
def toJson : Source → Json
  | .atom a => atomValue a
  | .list items _ => .list (itemsToJson items)
  | .map members _ => .map (Json.ofMembers (membersToJson members))
  | .absent _ => .null
/-- The values of the items of a list. -/
def itemsToJson : List Source → List Json
  | [] => []
  | item :: rest => toJson item :: itemsToJson rest
/-- The values of the members of a map, as they stand. -/
def membersToJson : List (Quoted × Source) → List (String × Json)
  | [] => []
  | (name, value) :: rest => (name.text?.getD "", toJson value) :: membersToJson rest
end

end Source

/-! ## The tree of a value -/

mutual
/-- The tree that the written form of a value has. Uses auxiliary list forms so the nested recursion
is structural. -/
def Json.toSource : Json → Source
  | .null => .atom .null
  | .bool b => .atom (.bool b)
  | .number n => .atom (.number n)
  | .text s => .atom (.text (.text s))
  | .list items => .list (itemsToSource items) .closed
  | .map members => .map (membersToSource members) .closed
/-- The trees of the items of a list. -/
def Json.itemsToSource : List Json → List Source
  | [] => []
  | item :: rest => item.toSource :: itemsToSource rest
/-- The trees of the members of a map. -/
def Json.membersToSource : List (String × Json) → List (Quoted × Source)
  | [] => []
  | (name, value) :: rest => (.text name, value.toSource) :: membersToSource rest
end

end QueryShaping
