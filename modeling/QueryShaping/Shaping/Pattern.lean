/-!
# Search patterns

A pattern stands for texts: a percent sign in it for any characters, an underscore for any one
character, and a backslash makes the next character stand for itself.

## What this module delivers

- `Pattern.escape`: a text with a backslash before each percent sign and each underscore.
- `Pattern.containing`: the pattern that is searched for a text.
-/

set_option autoImplicit false

namespace QueryShaping

namespace Pattern

/-- Whether a character stands for others in a pattern. -/
def isWildcard (c : Char) : Bool := c = '%' || c = '_'

/-- The escaped form of a character. -/
def escapeChar (c : Char) : List Char := if isWildcard c then ['\\', c] else [c]

/-- The escaped form of characters. -/
def escapeChars (cs : List Char) : List Char := cs.flatMap escapeChar

/-- The escaped form of a text. Backslashes in the text stay as they are. -/
def escape (text : String) : String := String.ofList (escapeChars text.toList)

/-- The pattern for texts that contain the given one. -/
def containing (text : String) : String :=
  String.ofList ('%' :: (escapeChars text.toList ++ ['%']))

end Pattern

end QueryShaping
