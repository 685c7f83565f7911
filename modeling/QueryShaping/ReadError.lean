import QueryShaping.Json.Render
import QueryShaping.Source.Tree
import QueryShaping.Text.Shown

/-!
# Why a document is refused

A document is refused for one cause: the first in the order of the text. The cause belongs to one of
three kinds. The text is malformed, or it ends too early, or it is well written but has another
shape than the one asked for.

## What this module delivers

- `ReadError`: the causes.
- `ReadError.kind`: which of the three kinds a cause belongs to.
- `ReadError.message`: its wording.
-/

set_option autoImplicit false

namespace QueryShaping

/-! ## Causes -/

/-- A rule of writing that a text breaks. -/
inductive Malformation where
  | noValue
  | misspeltName
  | noColon
  | noCommaOrBrace
  | noCommaOrBracket
  | nameNotText
  | trailingComma
  | trailingCharacters
  | badNumber
  | numberTooLarge
  | badEscape
  | loneUnit
  | unpairedUnit
  | controlCharacter
  | tooDeep
  deriving DecidableEq

/-- What a text ends in the middle of. -/
inductive Unfinished where
  | value
  | list
  | map
  | text
  deriving DecidableEq

/-- What stands in a document, as a message calls it. -/
inductive Found where
  | null
  | bool (b : Bool)
  | number (n : Number)
  | text (s : String)
  | list
  | map
  deriving DecidableEq

/-- What is asked for, as a message calls it. -/
inductive Wanted where
  | text
  | bool
  | list
  | record (name : String)
  | pair
  | positive
  | textOrMap
  | oneMember
  | choiceName
  | nothing
  deriving DecidableEq

/-- How many elements are asked for, as a message calls it. -/
inductive WantedLength where
  | fields (record : String) (count : Nat)
  | pair
  | elements (count : Nat)
  deriving DecidableEq

/-- A rule of shape that a well written document breaks. -/
inductive Mismatch where
  | wrongType (found : Found) (wanted : Wanted)
  | wrongValue (found : Found) (wanted : Wanted)
  | wrongLength (found : Nat) (wanted : WantedLength)
  | unknownChoice (found : String) (choices : List String)
  | repeatedField (name : String)
  | missingField (name : String)
  | noAlternative (name : String)
  | wrongPayload (kind : String) (found : Json)
  | limitNotNatural (found : Number)
  | limitNotNumber (kind : String)
  | unknownDirection (found : String)

/-- Why a document is refused. -/
inductive ReadError where
  | malformed (rule : Malformation)
  | unfinished (what : Unfinished)
  | mismatch (rule : Mismatch)

/-- The kinds of causes. -/
inductive ReadError.Kind where
  | malformed
  | unfinished
  | mismatch
  deriving DecidableEq

/-- The kind of a cause. -/
def ReadError.kind : ReadError → ReadError.Kind
  | .malformed _ => .malformed
  | .unfinished _ => .unfinished
  | .mismatch _ => .mismatch

/-! ## Wording -/

/-- The wording of a broken rule of writing. -/
def Malformation.message : Malformation → String
  | .noValue => "expected value"
  | .misspeltName => "expected ident"
  | .noColon => "expected `:`"
  | .noCommaOrBrace => "expected `,` or `\x7d`"
  | .noCommaOrBracket => "expected `,` or `]`"
  | .nameNotText => "key must be a string"
  | .trailingComma => "trailing comma"
  | .trailingCharacters => "trailing characters"
  | .badNumber => "invalid number"
  | .numberTooLarge => "number out of range"
  | .badEscape => "invalid escape"
  | .loneUnit => "lone leading surrogate in hex escape"
  | .unpairedUnit => "unexpected end of hex escape"
  | .controlCharacter =>
    "control character (\\u0000-\\u001F) found while parsing a string"
  | .tooDeep => "recursion limit exceeded"

/-- The wording of an early end. -/
def Unfinished.message : Unfinished → String
  | .value => "EOF while parsing a value"
  | .list => "EOF while parsing a list"
  | .map => "EOF while parsing an object"
  | .text => "EOF while parsing a string"

/-- The wording of what stands in a document. -/
def Found.message : Found → String
  | .null => "null"
  | .bool b => s!"boolean `{b}`"
  | .number (.int n) => s!"integer `{(Number.int n).text}`"
  | .number (.double x) => s!"floating point `{(Number.double x).text}`"
  | .text s => s!"string {Shown.text s}"
  | .list => "sequence"
  | .map => "map"

/-- The wording of what is asked for. -/
def Wanted.message : Wanted → String
  | .text => "a string"
  | .bool => "a boolean"
  | .list => "a sequence"
  | .record name => s!"struct {name}"
  | .pair => "an array of length 2"
  | .positive => "a nonzero u32"
  | .textOrMap => "string or map"
  | .oneMember => "map with a single key"
  | .choiceName => "variant identifier"
  | .nothing => "unit"

/-- A count of elements. -/
def elementCount (n : Nat) : String := if n = 1 then "1 element" else s!"{n} elements"

/-- The wording of a length. -/
def WantedLength.message : WantedLength → String
  | .fields record count => s!"struct {record} with {elementCount count}"
  | .pair => "an array of length 2"
  | .elements count => s!"{elementCount count} in sequence"

/-- A name between backticks. -/
def ticked (name : String) : String := s!"`{name}`"

/-- The wording of the choices for a name. -/
def choicesMessage : List String → String
  | [] => "there are no variants"
  | [a] => s!"expected {ticked a}"
  | [a, b] => s!"expected {ticked a} or {ticked b}"
  | choices => "expected one of " ++ String.intercalate ", " (choices.map ticked)

/-- The wording of a direction that is none. -/
def unknownDirectionMessage (found : String) : String :=
  s!"invalid order direction {Shown.text found}, expected \"asc\" or \"desc\""

/-- The wording of a broken rule of shape. -/
def Mismatch.message : Mismatch → String
  | .wrongType found wanted => s!"invalid type: {found.message}, expected {wanted.message}"
  | .wrongValue found wanted => s!"invalid value: {found.message}, expected {wanted.message}"
  | .wrongLength found wanted => s!"invalid length {found}, expected {wanted.message}"
  | .unknownChoice found choices => s!"unknown variant {ticked found}, {choicesMessage choices}"
  | .repeatedField name => s!"duplicate field {ticked name}"
  | .missingField name => s!"missing field {ticked name}"
  | .noAlternative name => s!"data did not match any variant of untagged enum {name}"
  | .wrongPayload kind found => s!"{kind} literal cannot hold {found.compact}"
  | .limitNotNatural found => s!"LIMIT value {found.text} is not a non-negative integer"
  | .limitNotNumber kind => s!"LIMIT value must be a number, found {kind}"
  | .unknownDirection found => unknownDirectionMessage found

/-- The wording of a cause. -/
def ReadError.message : ReadError → String
  | .malformed rule => rule.message
  | .unfinished what => what.message
  | .mismatch rule => rule.message

end QueryShaping
