import QueryShaping.Text.Invisible

/-!
# Text inside messages

Messages and log lines show a text between double quotes so that every character of it can be seen:
quotes and backslashes are escaped, the common control characters have short escapes, and any other
character that does not show is given by its code.

## What this module delivers

- `Shown.encodeChar`, `Shown.text`: the shown form of a character and of a text.
- `Shown.path`: the shown form of a path, in which apostrophes are escaped as well.
-/

set_option autoImplicit false

namespace QueryShaping

namespace Shown

/-- The code of a character in lowercase hexadecimal digits, between braces. -/
def encodeCode (c : Char) : List Char :=
  ['\\', 'u', '\x7b'] ++ Nat.toDigits 16 c.toNat ++ ['\x7d']

/-- Whether a character is shown by its code: the control characters, and what does not show. -/
def needsCode (c : Char) : Bool :=
  if c.toNat < 0x80 then c.toNat < 0x20 || c.toNat == 0x7f else Invisible.contains c

/-- The shown form of a character. -/
def encodeChar (c : Char) : List Char :=
  if c = '"' ∨ c = '\\' then ['\\', c]
  else if c = '\n' then ['\\', 'n']
  else if c = '\r' then ['\\', 'r']
  else if c = '\t' then ['\\', 't']
  else if c.toNat = 0 then ['\\', '0']
  else if needsCode c then encodeCode c
  else [c]

/-- The shown form of a text, with its quotes. -/
def text (s : String) : String :=
  String.ofList ('"' :: (s.toList.flatMap encodeChar ++ ['"']))

/-- The shown form of a character of a path. -/
def encodePathChar (c : Char) : List Char := if c = '\'' then ['\\', c] else encodeChar c

/-- The shown form of a path, with its quotes. -/
def path (s : String) : String :=
  String.ofList ('"' :: (s.toList.flatMap encodePathChar ++ ['"']))

end Shown

end QueryShaping
