import QueryShaping.Source.Read

/-!
# Records

A record is written as a map from the names of its fields, or as a list of its fields in order. Each
field is read on its own; when several things are wrong, the first in the order of the text is the
cause. So every fault carries the place at which the text has it, and two results are combined by
keeping the earlier fault.

## What this module delivers

- `Placed`: a result or a fault with its place; `Placed.seq` keeps the earlier fault.
- `Field`: a field of a record, with the names it goes by and its place in a list.
- `Record.required`, `Record.optional`, `Record.withDefault`: reading one field.
- `Record.read`: reading a record that is written either way.
- `Record.readMap`: reading a record that is only written as a map, and keeps its other members.
-/

set_option autoImplicit false

namespace QueryShaping

/-! ## Results with places -/

/-- A result, or a fault and the place of the member at which the text has it. -/
inductive Placed (α : Type) where
  | ok (a : α)
  | fault (place : Nat) (cause : ReadError)

namespace Placed

/-- The result at a place. -/
def ofExcept {α : Type} (place : Nat) : Except ReadError α → Placed α
  | .ok a => .ok a
  | .error e => .fault place e

/-- Applies a result to a result, keeping the earlier of two faults. -/
def seq {α β : Type} : Placed (α → β) → Placed α → Placed β
  | .ok f, .ok a => .ok (f a)
  | .ok _, .fault place e => .fault place e
  | .fault place e, .ok _ => .fault place e
  | .fault p e, .fault q e' => if q < p then .fault q e' else .fault p e

instance : Applicative Placed where
  pure := .ok
  seq f a := seq f (a ())

/-- The result, or the cause of its fault. -/
def toExcept {α : Type} : Placed α → Except ReadError α
  | .ok a => .ok a
  | .fault _ e => .error e

end Placed

/-! ## Fields -/

/-- A field of a record. -/
structure Field where
  /-- Its place in a list of the fields, from zero. -/
  place : Nat
  /-- Its name in messages and documents. -/
  name : String
  /-- Other names that documents use. -/
  aliases : List String

namespace Field

/-- A field with one name. -/
def named (place : Nat) (name : String) : Field := ⟨place, name, []⟩

/-- Whether a name denotes the field. -/
def goesBy (f : Field) (name : String) : Bool := name == f.name || f.aliases.contains name

/-- Whether a name in a document denotes the field. -/
def matchesName (f : Field) (q : Quoted) : Bool :=
  match q.text? with
  | some name => f.goesBy name
  | none => false

end Field

/-- What a record looks like. -/
structure Outline where
  wanted : Wanted
  length : WantedLength
  fields : List Field

namespace Outline

/-- The outline of a record with a name. -/
def record (name : String) (fields : List Field) : Outline :=
  ⟨.record name, .fields name fields.length, fields⟩

/-- The field that a name denotes. -/
def find? (o : Outline) (q : Quoted) : Option Field := o.fields.find? (·.matchesName q)

end Outline

/-! ## Reading a field -/

/-- A record as it is written. -/
inductive Record where
  | byName (members : List (Quoted × Source))
  | byPlace (outline : Outline) (items : List Source)

namespace Record

/-- The first value that a field has, and its place. -/
def find? (r : Record) (f : Field) : Option (Nat × Source) :=
  match r with
  | .byName members =>
    (members.findIdx? fun m => f.matchesName m.1).bind fun i => members[i]?.map fun m => (i, m.2)
  | .byPlace _ items => items[f.place]?.map fun item => (f.place, item)

/-- The fault that a required field is not there. In a map it shows at the end, after all else; in a
list at the place where the items end. -/
def missing {α : Type} (r : Record) (f : Field) : Placed α :=
  match r with
  | .byName members => .fault (members.length + 1) (.mismatch (.missingField f.name))
  | .byPlace o items => .fault items.length (.mismatch (.wrongLength items.length o.length))

/-- Reads a field that has to be there. The reader is given the place of the value too. -/
def requiredAt {α : Type} (r : Record) (f : Field) (read : Nat → Source → Except ReadError α) :
    Placed α :=
  match r.find? f with
  | some (place, src) => .ofExcept place (read place src)
  | none => r.missing f

/-- Reads a field that has to be there. -/
def required {α : Type} (r : Record) (f : Field) (read : Source → Except ReadError α) :
    Placed α :=
  r.requiredAt f fun _ => read

/-- Reads a field that may be missing in both ways of writing. -/
def withDefault {α : Type} (r : Record) (f : Field) (default : α)
    (read : Source → Except ReadError α) : Placed α :=
  match r.find? f with
  | some (place, src) => .ofExcept place (read src)
  | none => .ok default

/-- Reads a field that may be null, or missing in a map; a list has to hold it. -/
def optional {α : Type} (r : Record) (f : Field) (read : Source → Except ReadError α) :
    Placed (Option α) :=
  match r with
  | .byName _ => r.withDefault f none (Source.readOptional read)
  | .byPlace _ _ => r.required f (Source.readOptional read)

/-! ## Reading what is no field -/

/-- Reads what the record has no field for. -/
def readOther (keep : Bool) : Reading → Source → Except ReadError Unit
  | .direct room, src => if keep then src.check room else src.ignore
  | .stored, _ => .ok ()

/-- Reads a member apart from the value of its field: its name, that the field has no value yet, and
the value if there is no field for it. -/
def readMember (keep : Bool) (o : Outline) (way : Reading) (seen : List Field) (name : Quoted)
    (value : Source) : Except ReadError (List Field) := do
  let _ ← name.check
  match o.find? name with
  | none =>
    readOther keep way value
    return seen
  | some f =>
    if seen.any (·.name == f.name) then .error (.mismatch (.repeatedField f.name))
    else return f :: seen

/-- Reads the members of a map from a place on, apart from the values of the fields. -/
def readMembers (keep : Bool) (o : Outline) (way : Reading) (fin : MapEnd) :
    Nat → List Field → List (Quoted × Source) → Placed Unit
  | place, _, [] => .ofExcept place fin.check
  | place, seen, (name, value) :: rest =>
    match readMember keep o way seen name value with
    | .ok seen => readMembers keep o way fin (place + 1) seen rest
    | .error e => .fault place e

/-- Reads the end of a list of fields straight from the text, after the last field. -/
def readEnd (surplus : List Source) (fin : ListEnd) : Except ReadError Unit :=
  if surplus.isEmpty then
    match fin with
    | .noSeparator => .error (.malformed .trailingCharacters)
    | fin => fin.check
  else .error (.malformed .trailingCharacters)

/-- Reads the end of a stored list of fields, after the last field. -/
def readStoredEnd (count : Nat) (surplus : List Source) : Except ReadError Unit :=
  if surplus.isEmpty then .ok ()
  else .error (.mismatch (.wrongLength (count + surplus.length) (.elements count)))

/-- Reads the list of the fields apart from their values: it ends with the last field at the
latest. -/
def readItems (o : Outline) (way : Reading) (items : List Source) (fin : ListEnd) : Placed Unit :=
  let count := o.fields.length
  if items.length < count then .ofExcept items.length fin.check
  else
    match way with
    | .direct _ => .ofExcept count (readEnd (items.drop count) fin)
    | .stored => .ofExcept count (readStoredEnd count (items.drop count))

/-! ## Reading a record -/

/-- Reads a record that is written as a map or as a list. -/
def read {α : Type} (o : Outline) (body : Reading → Record → Placed α) (way : Reading) :
    Source → Except ReadError α
  | .map members fin => do
    let inner ← way.enter
    let frame := readMembers false o inner fin 0 [] members
    ((fun _ a => a) <$> frame <*> body inner (.byName members)).toExcept
  | .list items fin => do
    let inner ← way.enter
    let frame := readItems o inner items fin
    ((fun _ a => a) <$> frame <*> body inner (.byPlace o items)).toExcept
  | src => .error (src.refuse o.wanted)

/-- Reads a record that is only written as a list. -/
def readTuple {α : Type} (o : Outline) (body : Reading → Record → Placed α) (way : Reading) :
    Source → Except ReadError α
  | .map members fin => .error ((Source.map members fin).refuse o.wanted)
  | src => read o body way src

/-- The members of a map that the record has no field for, in normal form. -/
def others (o : Outline) (members : List (Quoted × Source)) : List (String × Json) :=
  Json.ofMembers
    (Source.membersToJson (members.filter fun m => (o.find? m.1).isNone))

/-- Reads a record that is only written as a map. What it has no field for is stored, and given to
the reader of the fields. -/
def readMap {α : Type} (o : Outline)
    (body : Reading → Record → List (String × Json) → Placed α) (way : Reading) :
    Source → Except ReadError α
  | .map members fin => do
    let inner ← way.enter
    let frame := readMembers true o inner fin 0 [] members
    ((fun _ a => a) <$> frame <*> body inner (.byName members) (others o members)).toExcept
  | src => .error (src.refuse o.wanted)

end Record

end QueryShaping
