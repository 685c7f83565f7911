import QueryShaping.Request.Basic

/-!
# Why a request is rejected

## What this module delivers

- `Rejection`: the causes for which a request cannot be met by any statement.
- `Rejection.kind`, `Rejection.message`: the kind of a cause and its wording.
-/

set_option autoImplicit false

namespace QueryShaping

/-- Why a request is rejected. -/
inductive Rejection where
  /-- The request asks for a limit for each group of rows. -/
  | limitPer
  /-- A key of several attributes is compared by something else than equality. -/
  | keyComparison (comparison : Comparison) (names : List String)
  /-- A condition holds another number of values than its attribute takes. -/
  | arity (target : Attribute) (expected found : Nat)
  /-- A group of the filter holds no condition. -/
  | emptyGroup
  /-- A key has no attributes. -/
  | emptyKey
  /-- A tuple holds no value. -/
  | emptyTuple (names : List String)
  /-- A key is compared with no tuple at all. -/
  | noTuples (names : List String)
  deriving DecidableEq

/-- The kinds of rejections. -/
inductive Rejection.Kind where
  | unsupported
  | arity
  | invalidFilter
  deriving DecidableEq

namespace Rejection

/-- The kind of a rejection. -/
def kind : Rejection → Kind
  | .limitPer => .unsupported
  | .keyComparison _ _ => .unsupported
  | .arity _ _ _ => .arity
  | .emptyGroup => .invalidFilter
  | .emptyKey => .invalidFilter
  | .emptyTuple _ => .invalidFilter
  | .noTuples _ => .invalidFilter

/-- The names of a key as messages call them. -/
def keyTitle (names : List String) : String := (Attribute.composite names).title

/-- What exactly is wrong or asked for. -/
def detail : Rejection → String
  | .limitPer => "\"limitPer\""
  | .keyComparison comparison names =>
    s!"operator \"{comparison.name}\" on composite key {keyTitle names}"
  | .arity target expected found =>
    s!"filter on {target.title} expects {expected} value(s), found {found}"
  | .emptyGroup => "empty AND-group"
  | .emptyKey => "composite key without attributes"
  | .emptyTuple names => s!"empty tuple for {keyTitle names}"
  | .noTuples names => s!"no value tuples for {keyTitle names}"

/-- The wording of a rejection. -/
def message (r : Rejection) : String :=
  match r.kind with
  | .unsupported => s!"query compiler does not support {r.detail}"
  | .arity => r.detail
  | .invalidFilter => s!"invalid filter: {r.detail}"

end Rejection

end QueryShaping
