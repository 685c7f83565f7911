import QueryShaping.Command.Options
import QueryShaping.Document

/-!
# Messages of a run

While it runs, the command tells what it does. Each message has a level, and those for debugging
are only given where the run is verbose.

## What this module delivers

- `Notice`: the messages, with their levels and their wording.
- `Document.notices`: the messages of shaping a document.
-/

set_option autoImplicit false

namespace QueryShaping

/-- How important a message is. -/
inductive Notice.Level where
  | debug
  | info
  | warn
  deriving DecidableEq, Repr

/-- A message of a run. -/
inductive Notice where
  | started (options : Options)
  | parsed (columns : Nat) (hasCondition : Bool)
  | rejectingLimitPer
  | shaping (request : Request)
  | nothingToDo
  | wrote (path : String)

namespace Notice

/-- The level of a message. -/
def level : Notice → Level
  | .started _ => .debug
  | .parsed _ _ => .debug
  | .rejectingLimitPer => .warn
  | .shaping _ => .debug
  | .nothingToDo => .debug
  | .wrote _ => .info

/-- The name of a level, five characters wide. -/
def Level.name : Level → String
  | .debug => "DEBUG"
  | .info => " INFO"
  | .warn => " WARN"

/-- An optional part of a message. -/
def shown {α : Type} (write : α → String) : Option α → String
  | some a => s!"Some({write a})"
  | none => "None"

/-- A positive word in a message. -/
def shownPositive (n : Option Positive) : String := shown (fun p => toString p.val.toNat) n

/-- The wording of a message without its level. -/
def text : Notice → String
  | .started o =>
    s!"compile command input={shown Shown.path o.input} output={shown Shown.path o.output} "
      ++ s!"pretty={o.pretty}"
  | .parsed columns hasCondition =>
    s!"parsed query document columns={columns} has_where={hasCondition}"
  | .rejectingLimitPer => "rejecting query shape with limitPer"
  | .shaping r =>
    s!"compiling query shape order={r.order.length} limit={shownPositive r.limit} "
      ++ s!"page={shownPositive r.page} filter_groups={r.filter.length} "
      ++ s!"searchable={r.searchable.length} search={r.searchText?.isSome}"
  | .nothingToDo => "query shape contributes nothing"
  | .wrote path => s!"Wrote compiled AST to {path}"

/-- The lines of a message: one, unless a path in it holds line breaks. -/
def lines (n : Notice) : List String := s!"{n.level.name} {n.text}".splitOn "\n"

/-- Whether a run gives a message. -/
def isGiven (verbose : Bool) (n : Notice) : Bool := verbose || n.level != .debug

end Notice

/-- The message after a patch was worked out: one, where it changes nothing. -/
def Patch.notices (p : Patch) : List Notice := if p.isEmpty then [.nothingToDo] else []

/-- The messages of shaping a statement by a request. -/
def Request.notices (r : Request) (st : Statement) : List Notice :=
  if r.limitPer.isSome then [.rejectingLimitPer]
  else
    .shaping r :: match r.patch st with
      | .ok p => p.notices
      | .error _ => []

/-- The messages of shaping a document. -/
def Document.notices (d : Document) : List Notice :=
  .parsed d.statement.items.length d.statement.condition.isSome :: d.request.notices d.statement

end QueryShaping
