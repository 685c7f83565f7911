import QueryShaping.Source.Token

/-!
# Documents as trees

A `Source` is what a text says before anyone asks for a meaning: a tree of atoms, lists and maps as
they stand in the text, with names in the order of the text and as often as they occur. A text that
breaks off or breaks a rule has a tree too, in which the place of the fault is marked; whoever reads
the tree in the order of the text meets the fault where the text has it.

## What this module delivers

- `Source`: the trees.
- `Source.Progress`: how far a text has been read, with a step for each token.
- `Source.ofChars`: the tree of a text, and whether something follows it.
-/

set_option autoImplicit false

namespace QueryShaping

/-- How a list ends. -/
inductive ListEnd where
  | closed
  /-- The text ends where a comma or the closing bracket is due. -/
  | cutOff
  /-- A comma stands before the closing bracket. -/
  | trailingComma
  /-- Something else stands where a comma or the closing bracket is due. -/
  | noSeparator
  deriving DecidableEq

/-- How a map ends. -/
inductive MapEnd where
  | closed
  /-- The text ends where a name, a comma or the closing brace is due. -/
  | cutOff
  /-- The text ends after a comma. -/
  | cutOffAfterComma
  /-- A comma stands before the closing brace. -/
  | trailingComma
  /-- Something else stands where a comma or the closing brace is due. -/
  | noSeparator
  /-- This token stands where a name is due. -/
  | noName (found : Token)
  deriving DecidableEq

/-- Why there is no value where one is due. -/
inductive Absence where
  /-- The text ends. -/
  | cutOff
  /-- Something stands there that starts no value. -/
  | unexpected
  /-- The text ends between the name and its colon. -/
  | cutOffBeforeColon
  /-- Something else stands where the colon is due. -/
  | noColon
  deriving DecidableEq

/-- The tree of a text. -/
inductive Source where
  | atom (a : Atom)
  | list (items : List Source) (fin : ListEnd)
  | map (members : List (Quoted × Source)) (fin : MapEnd)
  | absent (reason : Absence)

namespace Source

instance : Inhabited Source := ⟨.absent .cutOff⟩

/-! ## Reading tokens -/

/-- A list or map that is open, with what it holds before the open place, last first. -/
inductive Frame where
  | inList (before : List Source)
  | inMap (before : List (Quoted × Source)) (name : Quoted)

/-- A value at an open place, with all that is open around it broken off. -/
def breakOff (v : Source) : List Frame → Source
  | [] => v
  | .inList before :: frames => breakOff (.list (v :: before).reverse .cutOff) frames
  | .inMap before name :: frames => breakOff (.map ((name, v) :: before).reverse .cutOff) frames

/-- How far a text has been read. -/
inductive Progress where
  /-- A value is due. -/
  | value (frames : List Frame)
  /-- A list has just been opened. -/
  | listStart (frames : List Frame)
  /-- A comma has been read in a list. -/
  | listComma (before : List Source) (frames : List Frame)
  /-- A map has just been opened. -/
  | mapStart (frames : List Frame)
  /-- A comma has been read in a map. -/
  | mapComma (before : List (Quoted × Source)) (frames : List Frame)
  /-- A name has been read in a map. -/
  | named (before : List (Quoted × Source)) (name : Quoted) (frames : List Frame)
  /-- A value has been read. -/
  | full (v : Source) (frames : List Frame)
  /-- The whole value has been read and something follows it. -/
  | surplus (v : Source)
  /-- The text has a fault, and the rest of it has no meaning. -/
  | faulty (v : Source)

namespace Progress

/-- A token where a value is due. -/
def stepValue (frames : List Frame) : Token → Progress
  | .atom a => .full (.atom a) frames
  | .openList => .listStart frames
  | .openMap => .mapStart frames
  | _ => .faulty (breakOff (.absent .unexpected) frames)

/-- A token where a name is due. -/
def stepName (before : List (Quoted × Source)) (frames : List Frame) : Token → Progress
  | .atom (.text q) => .named before q frames
  | found => .faulty (breakOff (.map before.reverse (.noName found)) frames)

/-- A token after a value. -/
def stepFull (v : Source) : List Frame → Token → Progress
  | [], _ => .surplus v
  | .inList before :: frames, .comma => .listComma (v :: before) frames
  | .inList before :: frames, .closeList => .full (.list (v :: before).reverse .closed) frames
  | .inList before :: frames, _ =>
    .faulty (breakOff (.list (v :: before).reverse .noSeparator) frames)
  | .inMap before name :: frames, .comma => .mapComma ((name, v) :: before) frames
  | .inMap before name :: frames, .closeMap =>
    .full (.map ((name, v) :: before).reverse .closed) frames
  | .inMap before name :: frames, _ =>
    .faulty (breakOff (.map ((name, v) :: before).reverse .noSeparator) frames)

/-- One token further. -/
def step : Progress → Token → Progress
  | .value frames, t => stepValue frames t
  | .listStart frames, .closeList => .full (.list [] .closed) frames
  | .listStart frames, t => stepValue (.inList [] :: frames) t
  | .listComma before frames, .closeList =>
    .faulty (breakOff (.list before.reverse .trailingComma) frames)
  | .listComma before frames, t => stepValue (.inList before :: frames) t
  | .mapStart frames, .closeMap => .full (.map [] .closed) frames
  | .mapStart frames, t => stepName [] frames t
  | .mapComma before frames, .closeMap =>
    .faulty (breakOff (.map before.reverse .trailingComma) frames)
  | .mapComma before frames, t => stepName before frames t
  | .named before name frames, .colon => .value (.inMap before name :: frames)
  | .named before name frames, _ =>
    .faulty (breakOff (.absent .noColon) (.inMap before name :: frames))
  | .full v frames, t => stepFull v frames t
  | .surplus v, _ => .surplus v
  | .faulty v, _ => .faulty v

/-- The tree where the text ends here, and whether something follows the value. -/
def finish : Progress → Source × Bool
  | .value frames => (breakOff (.absent .cutOff) frames, false)
  | .listStart frames => (breakOff (.list [] .cutOff) frames, false)
  | .listComma before frames => (breakOff (.absent .cutOff) (.inList before :: frames), false)
  | .mapStart frames => (breakOff (.map [] .cutOff) frames, false)
  | .mapComma before frames => (breakOff (.map before.reverse .cutOffAfterComma) frames, false)
  | .named before name frames =>
    (breakOff (.absent .cutOffBeforeColon) (.inMap before name :: frames), false)
  | .full v frames => (breakOff v frames, false)
  | .surplus v => (v, true)
  | .faulty v => (v, false)

/-- Several tokens further. -/
def steps (p : Progress) (ts : List Token) : Progress := ts.foldl step p

end Progress

/-- The tree of a text, and whether something follows the value. -/
def ofChars (cs : List Char) : Source × Bool :=
  (Progress.steps (.value []) (Token.scan cs)).finish

end Source

end QueryShaping
