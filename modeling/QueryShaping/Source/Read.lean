import QueryShaping.Source.Check

/-!
# Reading values for a purpose

A reader takes a value for something: a text, a list of texts, a choice among names. It reads either
straight from the text, where the first fault wins and nesting takes room, or from a value that was
stored before, which is known to be well written.

## What this module delivers

- `Reading`: the two ways of reading, and the room that is left.
- `Source.readText`, `Source.readBool`, `Source.readOptional`, `Source.readList`,
  `Source.readAny`: readers of plain values.
- `Source.readChoice`: a reader of one name among several, which stands alone or as the only name of
  a map.
-/

set_option autoImplicit false

namespace QueryShaping

/-- How a value is read. -/
inductive Reading where
  /-- Straight from the text, with room for so many levels of nesting. -/
  | direct (room : Nat)
  /-- From a value that was read to its end before. -/
  | stored
  deriving DecidableEq

namespace Reading

/-- The levels of nesting that a document may have. -/
def depthLimit : Nat := 127

/-- Reading a whole document. -/
def whole : Reading := .direct depthLimit

/-- Entering a list or map takes room when reading straight from the text. -/
def enter : Reading → Except ReadError Reading
  | .direct 0 => .error (.malformed .tooDeep)
  | .direct (room + 1) => .ok (.direct room)
  | .stored => .ok .stored

end Reading

namespace Source

/-! ## Plain values -/

/-- Reads a text. -/
def readText : Source → Except ReadError String
  | .atom (.text q) => q.check
  | src => .error (src.refuse .text)

/-- Reads a truth value. -/
def readBool : Source → Except ReadError Bool
  | .atom (.bool b) => .ok b
  | src => .error (src.refuse .bool)

/-- Reads a value that may be null. -/
def readOptional {α : Type} (read : Source → Except ReadError α) :
    Source → Except ReadError (Option α)
  | .atom .null => .ok none
  | src => some <$> read src

/-- Reads a value to its end, unless it was stored before. -/
def readWhole (way : Reading) (src : Source) : Except ReadError Unit :=
  match way with
  | .direct room => src.check room
  | .stored => .ok ()

/-- Reads any value. -/
def readAny (way : Reading) (src : Source) : Except ReadError Json := do
  src.readWhole way
  return src.toJson

/-- Reads a list of values. -/
def readList {α : Type} (read : Reading → Source → Except ReadError α) (way : Reading) :
    Source → Except ReadError (List α)
  | .list items fin => do
    let inner ← way.enter
    let values ← items.mapM (read inner)
    fin.check
    return values
  | src => .error (src.refuse .list)

/-- Reads a list of values, null standing for an empty one. -/
def readListOrNull {α : Type} (read : Reading → Source → Except ReadError α) (way : Reading)
    (src : Source) : Except ReadError (List α) :=
  (·.getD []) <$> src.readOptional (readList read way)

/-! ## One name among several -/

/-- The value that a name stands for. -/
def chosen {α : Type} (choices : List (String × α)) (name : String) : Except ReadError α :=
  match choices.lookup name with
  | some a => .ok a
  | none => .error (.mismatch (.unknownChoice name (choices.map (·.1))))

/-- What may stand beside a name that is the only one of a map: null, and where `mapToo` holds also a
map without members. -/
def readNothing (mapToo : Bool) : Source → Except ReadError Unit
  | .atom .null => .ok ()
  | .map [] fin => if mapToo then .ok () else .error ((Source.map [] fin).refuse .nothing)
  | src => .error (src.refuse .nothing)

/-- Why a token is refused where the name of a choice is due. -/
def refuseName : Token → ReadError
  | .atom a => (Source.atom a).refuse .choiceName
  | .openList => .mismatch (.wrongType .list .choiceName)
  | .openMap => .mismatch (.wrongType .map .choiceName)
  | _ => .malformed .noValue

/-- Reads what follows the only member of a map that holds a choice. -/
def readLastBrace (others : List (Quoted × Source)) : MapEnd → Except ReadError Unit
  | .closed => if others.isEmpty then .ok () else .error (.malformed .noValue)
  | .cutOff => .error (if others.isEmpty then .unfinished .map else .malformed .noValue)
  | _ => .error (.malformed .noValue)

/-- Reads a choice straight from the text, where the value is a map. -/
def readChoiceMap {α : Type} (choices : List (String × α)) :
    List (Quoted × Source) → MapEnd → Except ReadError α
  | (name, payload) :: others, fin => do
    let a ← chosen choices (← name.check)
    readNothing false payload
    readLastBrace others fin
    return a
  | [], .cutOff => .error (.unfinished .value)
  | [], .noName found => .error (refuseName found)
  | [], _ => .error (.malformed .noValue)

/-- Reads a choice straight from the text. -/
def readChoiceDirect {α : Type} (choices : List (String × α)) (way : Reading) :
    Source → Except ReadError α
  | .atom (.text q) => do chosen choices (← q.check)
  | .map members fin => do
    let _ ← way.enter
    readChoiceMap choices members fin
  | .absent reason => .error reason.error
  | _ => .error (.malformed .noValue)

/-- Reads a choice from a stored value. -/
def readChoiceStored {α : Type} (choices : List (String × α)) (mapToo : Bool) :
    Source → Except ReadError α
  | .atom (.text q) => do chosen choices (← q.check)
  | .map [(name, payload)] _ => do
    let a ← chosen choices (← name.check)
    readNothing mapToo payload
    return a
  | .map _ _ => .error (.mismatch (.wrongValue .map .oneMember))
  | src => .error (src.refuse .textOrMap)

/-- Reads one name among several: a text, or a map with the name as its only member. The payload of
the map is null. Where `mapToo` holds, a stored payload may also be a map without members. -/
def readChoice {α : Type} (choices : List (String × α)) (mapToo : Bool) (way : Reading)
    (src : Source) : Except ReadError α :=
  match way with
  | .direct _ => readChoiceDirect choices way src
  | .stored => readChoiceStored choices mapToo src

end Source

end QueryShaping
