/-!
# Quoted text

The text literals of a document stand between double quotes. Inside, a backslash starts an escape,
and `\u` with four hexadecimal digits stands for one unit of 16 bits, two of which may form a pair.

## What this module delivers

- `Quoted.scan`: a literal split into pieces, and how it ends.
- `Quoted.decode`: the text that pieces denote. Pieces can be complete and yet denote no text: a
  unit of a pair without its partner stands for no character.
- `Quoted.encode`: the written form of a text. Quotes, backslashes and control characters are
  escaped and everything else stands for itself.
-/

set_option autoImplicit false

namespace QueryShaping

/-- Why a literal denotes no text. -/
inductive TextFault where
  /-- The document ends inside the literal. -/
  | cutOff
  /-- A control character stands inside the literal. -/
  | controlCharacter
  /-- A backslash is followed by no known escape. -/
  | invalidEscape
  /-- A trailing unit comes first, or a leading one is followed by a unit that is not trailing. -/
  | loneUnit
  /-- A leading unit is followed by something else than a unit. -/
  | unpairedUnit
  deriving DecidableEq, Repr

/-- A literal as it was read from a document. -/
inductive Quoted where
  /-- The literal denotes a text. -/
  | text (s : String)
  /-- The literal is complete, but its units denote no text. -/
  | illFormed (fault : TextFault)
  /-- Reading stops inside the literal. The second fault is the one that remains where nobody asks
  for the text. -/
  | broken (fault bare : TextFault)
  deriving DecidableEq, Repr

namespace Quoted

/-! ## Pieces -/

/-- A piece of a literal: a character, written as itself or by a short escape, or a unit. -/
inductive Piece where
  | char (c : Char)
  | unit (n : Nat)
  deriving DecidableEq, Repr

/-- Where the scanning of a literal stops before its closing quote. -/
inductive Stop where
  /-- The document ends. -/
  | cutOff
  | controlCharacter
  | unknownEscape
  | malformedUnit
  deriving DecidableEq, Repr

/-- How a literal ends: with its quote, leaving what follows, or without it. -/
inductive Ending where
  | closed (rest : List Char)
  | stopped (stop : Stop)
  deriving DecidableEq, Repr

/-- The value of a hexadecimal digit, in either letter case. -/
def hexDigit? (c : Char) : Option Nat :=
  if '0' ≤ c ∧ c ≤ '9' then some (c.toNat - 48)
  else if 'a' ≤ c ∧ c ≤ 'f' then some (c.toNat - 87)
  else if 'A' ≤ c ∧ c ≤ 'F' then some (c.toNat - 55)
  else none

/-- The unit that four hexadecimal digits spell. -/
def unit? (a b c d : Char) : Option Nat := do
  let a ← hexDigit? a
  let b ← hexDigit? b
  let c ← hexDigit? c
  let d ← hexDigit? d
  return ((a * 16 + b) * 16 + c) * 16 + d

/-- The character that a short escape stands for. -/
def shortEscape? (c : Char) : Option Char :=
  if c = '"' ∨ c = '\\' ∨ c = '/' then some c
  else if c = 'b' then some '\x08'
  else if c = 'f' then some '\x0c'
  else if c = 'n' then some '\n'
  else if c = 'r' then some '\r'
  else if c = 't' then some '\t'
  else none

/-- The number of bytes that characters take. -/
def byteLength (cs : List Char) : Nat := cs.foldr (fun c n => c.utf8Size + n) 0

/-- Where scanning stops in a literal whose unit is not spelled by the next four characters: the four digits are
looked for in the next four bytes, so it is cut off only where fewer are left. -/
def unitStop (cs : List Char) : Stop :=
  if byteLength cs < 4 then .cutOff else .malformedUnit

/-- Puts a piece in front of what was scanned. -/
def cons (p : Piece) (scanned : List Piece × Ending) : List Piece × Ending :=
  (p :: scanned.1, scanned.2)

/-- The pieces of a literal after its opening quote, and how it ends. -/
def scan : List Char → List Piece × Ending
  | [] => ([], .stopped .cutOff)
  | '"' :: rest => ([], .closed rest)
  | ['\\'] => ([], .stopped .cutOff)
  | '\\' :: 'u' :: a :: b :: c :: d :: rest =>
    match unit? a b c d with
    | some n => cons (.unit n) (scan rest)
    | none => ([], .stopped (unitStop (a :: b :: c :: d :: rest)))
  | '\\' :: 'u' :: rest => ([], .stopped (unitStop rest))
  | '\\' :: c :: rest =>
    match shortEscape? c with
    | some c => cons (.char c) (scan rest)
    | none => ([], .stopped .unknownEscape)
  | c :: rest =>
    if c < ' ' then ([], .stopped .controlCharacter) else cons (.char c) (scan rest)

theorem length_lt_of_scan_closed {cs rest : List Char} (h : (scan cs).2 = .closed rest) :
    rest.length < cs.length := by
  fun_induction scan cs with
  | case2 r => simp_all
  | case4 =>
    rename_i ih
    have := ih (by simpa [cons] using h)
    simp only [List.length_cons]
    omega
  | case7 =>
    rename_i ih
    have := ih (by simpa [cons] using h)
    simp only [List.length_cons]
    omega
  | case10 =>
    rename_i ih
    have := ih (by simpa [cons] using h)
    simp only [List.length_cons]
    omega
  | _ => simp_all

/-! ## Meaning -/

/-- Whether a unit is the first of a pair. -/
def isLeading (n : Nat) : Bool := 0xD800 ≤ n && n < 0xDC00

/-- Whether a unit is the second of a pair. -/
def isTrailing (n : Nat) : Bool := 0xDC00 ≤ n && n < 0xE000

/-- The character that a pair of units stands for. -/
def pairChar (lead trail : Nat) : Char :=
  Char.ofNat (0x10000 + (lead - 0xD800) * 0x400 + (trail - 0xDC00))

/-- What is wrong with a literal that stops here. -/
def Stop.fault : Stop → TextFault
  | .cutOff => .cutOff
  | .controlCharacter => .controlCharacter
  | .unknownEscape => .invalidEscape
  | .malformedUnit => .invalidEscape

/-- What is wrong with a literal that ends, or stops, just after a leading unit. -/
def faultAfterLeading : Option Stop → TextFault
  | some .cutOff => .cutOff
  | some .malformedUnit => .invalidEscape
  | _ => .unpairedUnit

/-- The text that the pieces of a literal denote, `none` for the stop meaning that it is closed. The
first fault in the order of the text wins. -/
def decode (stop : Option Stop) : List Piece → Except TextFault (List Char)
  | [] =>
    match stop with
    | none => .ok []
    | some stop => .error stop.fault
  | .char c :: rest => (c :: ·) <$> decode stop rest
  | .unit n :: rest =>
    if isTrailing n then .error .loneUnit
    else if isLeading n then
      match rest with
      | .unit m :: rest =>
        if isTrailing m then (pairChar n m :: ·) <$> decode stop rest else .error .loneUnit
      | .char _ :: _ => .error .unpairedUnit
      | [] => .error (faultAfterLeading stop)
    else (Char.ofNat n :: ·) <$> decode stop rest

/-- A closed literal with the given pieces. -/
def ofPieces (pieces : List Piece) : Quoted :=
  match decode none pieces with
  | .ok cs => .text (String.ofList cs)
  | .error fault => .illFormed fault

/-- A literal with the given pieces that stops before its quote. -/
def ofBroken (pieces : List Piece) (stop : Stop) : Quoted :=
  match decode (some stop) pieces with
  | .ok _ => .broken stop.fault stop.fault
  | .error fault => .broken fault stop.fault

/-- Reads a literal after its opening quote. What follows it is left, nothing if it is broken. -/
def read (cs : List Char) : Quoted × List Char :=
  match scan cs with
  | (pieces, .closed rest) => (ofPieces pieces, rest)
  | (pieces, .stopped stop) => (ofBroken pieces stop, [])

theorem length_read_le (cs : List Char) : (read cs).2.length ≤ cs.length := by
  unfold read
  split
  · next pieces rest h => exact Nat.le_of_lt (length_lt_of_scan_closed (by rw [h]))
  · simp

/-- The text of a literal. -/
def toExcept : Quoted → Except TextFault String
  | .text s => .ok s
  | .illFormed fault => .error fault
  | .broken fault _ => .error fault

/-- The text of a literal, if it denotes one. -/
def text? : Quoted → Option String
  | .text s => some s
  | _ => none

/-! ## Writing -/

/-- The escape of a control character that has no short one: its code in four digits. -/
def encodeControl (c : Char) : List Char :=
  ['\\', 'u', '0', '0', Nat.digitChar (c.toNat / 16), Nat.digitChar (c.toNat % 16)]

/-- The written form of a character. -/
def encodeChar (c : Char) : List Char :=
  if c = '"' ∨ c = '\\' then ['\\', c]
  else if ' ' ≤ c then [c]
  else if c = '\x08' then ['\\', 'b']
  else if c = '\x0c' then ['\\', 'f']
  else if c = '\n' then ['\\', 'n']
  else if c = '\r' then ['\\', 'r']
  else if c = '\t' then ['\\', 't']
  else encodeControl c

/-- The written form of a text, with its quotes. -/
def encode (s : String) : List Char :=
  '"' :: (s.toList.flatMap encodeChar ++ ['"'])

end Quoted

end QueryShaping
