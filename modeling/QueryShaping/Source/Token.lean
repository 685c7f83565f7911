import QueryShaping.Number
import QueryShaping.Text.Quoted

/-!
# Tokens

A document is first cut into tokens: brackets, separators, and atoms, which are the names `null`,
`true` and `false`, numbers and quoted texts. A token can be faulty. Most faults end the document,
for what follows has no meaning any more; a number out of range and a complete literal that denotes
no text do not, since nobody may ask for them.

## What this module delivers

- `Token.next`: the first token of a text and what follows it.
- `Token.scan`: all tokens of a text. The last one may be faulty or `stray`.
-/

set_option autoImplicit false

namespace QueryShaping

/-- Why a number could not be read. -/
inductive NumberFault where
  | cutOff
  | malformed
  /-- The number is well written but too large for a finite double. -/
  | tooLarge
  deriving DecidableEq, Repr

/-- Why a name could not be read. -/
inductive NameFault where
  | cutOff
  | misspelt
  deriving DecidableEq, Repr

/-- A value without parts, as it was read from a document. -/
inductive Atom where
  | null
  | bool (b : Bool)
  | number (n : Number)
  | text (q : Quoted)
  | badNumber (fault : NumberFault)
  | badName (fault : NameFault)
  deriving DecidableEq

/-- A token of a document. -/
inductive Token where
  | openList
  | closeList
  | openMap
  | closeMap
  | comma
  | colon
  | atom (a : Atom)
  /-- A character that starts no token. -/
  | stray
  deriving DecidableEq

namespace Token

/-- The blanks that may stand between tokens. -/
def isBlank (c : Char) : Bool := c = ' ' || c = '\n' || c = '\t' || c = '\r'

/-- The text after its leading blanks. -/
def skipBlanks (cs : List Char) : List Char := cs.dropWhile isBlank

/-! ## Atoms -/

/-- Reads the remaining letters of a name. -/
def expectName (value : Atom) : List Char → List Char → Atom × List Char
  | [], rest => (value, rest)
  | _ :: _, [] => (.badName .cutOff, [])
  | expected :: letters, c :: rest =>
    if c = expected then expectName value letters rest else (.badName .misspelt, [])

/-- Reads a number. -/
def readNumber (cs : List Char) : Atom × List Char :=
  match Numeral.scan cs with
  | .error .cutOff => (.badNumber .cutOff, [])
  | .error .malformed => (.badNumber .malformed, [])
  | .ok (numeral, rest) =>
    match Number.ofNumeral? numeral with
    | some n => (.number n, rest)
    | none => (.badNumber .tooLarge, rest)

/-- Reads a quoted text after its opening quote. -/
def readText (cs : List Char) : Atom × List Char :=
  let (q, rest) := Quoted.read cs
  (.text q, rest)

/-- Reads the atom that starts with `c`, if `c` starts one. -/
def readAtom? (c : Char) (rest : List Char) : Option (Atom × List Char) :=
  if c = '"' then some (readText rest)
  else if c = '-' ∨ c.isDigit then some (readNumber (c :: rest))
  else if c = 'n' then some (expectName .null ['u', 'l', 'l'] rest)
  else if c = 't' then some (expectName (.bool true) ['r', 'u', 'e'] rest)
  else if c = 'f' then some (expectName (.bool false) ['a', 'l', 's', 'e'] rest)
  else none

/-! ## The first token -/

/-- The bracket or separator that a character is. -/
def ofPunctuation? (c : Char) : Option Token :=
  if c = '[' then some .openList
  else if c = ']' then some .closeList
  else if c = '\x7b' then some .openMap
  else if c = '\x7d' then some .closeMap
  else if c = ',' then some .comma
  else if c = ':' then some .colon
  else none

/-- The token that starts with `c`, and what follows it. -/
def starting (c : Char) (rest : List Char) : Token × List Char :=
  match ofPunctuation? c with
  | some t => (t, rest)
  | none =>
    match readAtom? c rest with
    | some (a, rest) => (.atom a, rest)
    | none => (.stray, [])

/-- The first token of a text and what follows it, unless only blanks are left. -/
def next (cs : List Char) : Option (Token × List Char) :=
  match skipBlanks cs with
  | [] => none
  | c :: rest => some (starting c rest)

/-! ## Each token shortens the text -/

theorem length_expectName_le (value : Atom) (letters cs : List Char) :
    (expectName value letters cs).2.length ≤ cs.length := by
  fun_induction expectName value letters cs with
  | case1 => simp
  | case2 => simp
  | case3 c letters rest ih => simp only [List.length_cons]; omega
  | case4 => simp

theorem length_readText_le (cs : List Char) : (readText cs).2.length ≤ cs.length :=
  Quoted.length_read_le cs

theorem length_readNumber_lt (c : Char) (rest : List Char) :
    (readNumber (c :: rest)).2.length < (c :: rest).length := by
  unfold readNumber
  split
  · simp
  · simp
  · next numeral after h =>
    have := Numeral.length_scan_lt h
    split <;> assumption

theorem length_readAtom?_le {c : Char} {rest : List Char} {found : Atom × List Char}
    (h : readAtom? c rest = some found) : found.2.length ≤ rest.length := by
  have number := length_readNumber_lt c rest
  simp only [List.length_cons] at number
  unfold readAtom? at h
  split at h
  · obtain rfl := Option.some.inj h
    exact length_readText_le rest
  split at h
  · obtain rfl := Option.some.inj h
    omega
  split at h
  · obtain rfl := Option.some.inj h
    exact length_expectName_le _ _ rest
  split at h
  · obtain rfl := Option.some.inj h
    exact length_expectName_le _ _ rest
  split at h
  · obtain rfl := Option.some.inj h
    exact length_expectName_le _ _ rest
  · simp at h

theorem length_starting_le (c : Char) (rest : List Char) :
    (starting c rest).2.length ≤ rest.length := by
  unfold starting
  split
  · exact Nat.le_refl _
  split
  · next h => exact length_readAtom?_le h
  · simp

theorem length_next_lt {cs : List Char} {t : Token} {rest : List Char}
    (h : next cs = some (t, rest)) : rest.length < cs.length := by
  unfold next at h
  split at h
  · simp at h
  · next c after hc =>
    have hle : (skipBlanks cs).length ≤ cs.length := (List.dropWhile_suffix _).length_le
    have hrest := length_starting_le c after
    rw [Option.some.inj h] at hrest
    rw [hc] at hle
    simp only [List.length_cons] at hle
    simp only at hrest
    omega

/-! ## All tokens -/

/-- The tokens of a text. -/
def scan (cs : List Char) : List Token :=
  match h : next cs with
  | none => []
  | some (t, rest) =>
    have : rest.length < cs.length := length_next_lt h
    t :: scan rest
termination_by cs.length

end Token

end QueryShaping
