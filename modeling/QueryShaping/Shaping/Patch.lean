import QueryShaping.Shaping.Filter

/-!
# Shaping statements

What a request asks for is first worked out as a patch, which holds the parts of a statement that
the request determines. The statement changes only when the whole patch is there.

## What this module delivers

- `Request.orderEntries?`, `Window.ofPage?`: the order and the window that a request asks for.
- `Request.patch`: the patch for a statement, or why the request is rejected.
- `Patch.apply`: the statement with the patch. Order and window replace what was there; a condition
  is added to the right of the one that was there.
- `Request.shape`: the statement that a request makes of a statement.
-/

set_option autoImplicit false

namespace QueryShaping

/-- The parts of a statement that a request determines. -/
structure Patch where
  order : Option (List OrderEntry)
  window : Option Window
  condition : Option Expr

/-- The window of a page: so many pages before it are skipped. Without a page size there is none,
and without a page number the first page is meant. -/
def Window.ofPage? (limit page : Option Positive) : Option Window :=
  limit.map fun limit =>
    let count := limit.val.toUInt64
    let before := match page with
      | some page => (page.val - 1).toUInt64
      | none => 0
    ⟨count * before, count⟩

/-- The order that a request asks for, if it asks for any. -/
def Request.orderEntries? (req : Request) (r : Resolver) : Option (List OrderEntry) :=
  if req.order.isEmpty then none
  else some (req.order.map fun key => ⟨r.resolve key.name, key.direction⟩)

/-- The condition of a statement with a new condition: the old one stays on the left. -/
def Expr.merge (existing : Option Expr) (new : Expr) : Expr :=
  match existing with
  | some existing => existing.and new
  | none => new

namespace Patch

/-- The patch that changes nothing. -/
def empty : Patch := ⟨none, none, none⟩

/-- Whether a patch changes nothing. -/
def isEmpty (p : Patch) : Bool := p.order.isNone && p.window.isNone && p.condition.isNone

/-- The statement with a patch. -/
def apply (p : Patch) (st : Statement) : Statement :=
  { st with
    order := p.order.or st.order
    window := p.window.or st.window
    condition := (p.condition.map (Expr.merge st.condition)).or st.condition }

end Patch

namespace Request

/-- The patch that a request asks for in a statement. -/
def patch (req : Request) (st : Statement) : Except Rejection Patch :=
  if req.limitPer.isSome then .error .limitPer
  else do
    let r := Resolver.ofStatement st
    return {
      order := req.orderEntries? r
      window := Window.ofPage? req.limit req.page
      condition := ← req.condition? r }

/-- The statement that a request makes of a statement. -/
def shape (req : Request) (st : Statement) : Except Rejection Statement := do
  return (← req.patch st).apply st

end Request

end QueryShaping
