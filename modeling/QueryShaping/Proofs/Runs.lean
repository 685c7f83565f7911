import Mathlib.Data.List.Induction
import Mathlib.Data.List.ReduceOption
import QueryShaping.Proofs.Shape

/-!
# Requests one after another

Several requests are put to one statement in turn. A request that is rejected leaves the statement
as it is, and the next one follows. Nothing that a request writes can change what names mean or which
requests are accepted later, so each part of the final statement can be told from the statement at
the start.

## What this module delivers

- `Statement.shapeAll`, `Statement.accepted`: a run of requests, and the requests that were accepted
  when their turn came.
- `Statement.SameFrame`: the parts that shaping does not touch; `Statement.SameFrame.resolver` says
  that they fix what names mean.
- `Statement.shapeMixed`: a run that also applies patches worked out before it began.
- `Statement.shapeAll_parts`: the order, the window and the condition after a run, and what the next
  request will do.
-/

set_option autoImplicit false

namespace QueryShaping

/-! ## The last of several values -/

/-- A value that comes first counts only if no later one does. -/
theorem last_or_cons {α β : Type} (f : α → Option β) (x : α) (xs : List α) (o : Option β) :
    ((x :: xs).filterMap f).getLast?.or o = (xs.filterMap f).getLast?.or ((f x).or o) := by
  cases hx : f x with
  | none => simp [hx]
  | some b =>
    rw [List.filterMap_cons_some hx, List.getLast?_cons]
    cases (xs.filterMap f).getLast? with
    | none => rfl
    | some b' => rfl

/-- The last of the values is the value of the last item that has one. -/
theorem getLast?_filterMap {α β : Type} (f : α → Option β) (xs : List α) :
    (xs.filterMap f).getLast? = (xs.filter fun x => (f x).isSome).getLast?.bind f := by
  induction xs using List.reverseRecOn with
  | nil => rfl
  | append_singleton xs x ih =>
    rw [List.filterMap_append, List.filter_append]
    cases hx : f x with
    | none => simp [hx, ih]
    | some b => simp [hx]

namespace Statement

/-! ## Runs -/

/-- The statement after a list of requests, each of them put to what the earlier ones made. -/
def shapeAll (st : Statement) : List Request → Statement
  | [] => st
  | req :: rest =>
    match req.shape st with
    | .ok st' => shapeAll st' rest
    | .error _ => shapeAll st rest

/-- The requests of a run that were accepted when their turn came. -/
def accepted (st : Statement) : List Request → List Request
  | [] => []
  | req :: rest =>
    match req.shape st with
    | .ok st' => req :: accepted st' rest
    | .error _ => accepted st rest

/-- A run in which some patches were worked out early, for the statement `start`, and are applied
when their turn comes. The flag of a request tells whether its patch is such a one. -/
def shapeMixed (start now : Statement) : List (Bool × Request) → Statement
  | [] => now
  | (early, req) :: rest =>
    match if early then (req.patch start).map (·.apply now) else req.shape now with
    | .ok next => shapeMixed start next rest
    | .error _ => shapeMixed start now rest

/-- The parts that shaping does not touch are the same. -/
structure SameFrame (st st' : Statement) : Prop where
  distinct : st'.distinct = st.distinct
  items : st'.items = st.items
  tables : st'.tables = st.tables
  groups : st'.groups = st.groups
  extra : st'.extra = st.extra

namespace SameFrame

theorem refl (st : Statement) : SameFrame st st := ⟨rfl, rfl, rfl, rfl, rfl⟩

theorem trans {a b c : Statement} (h : SameFrame a b) (h' : SameFrame b c) : SameFrame a c :=
  ⟨h'.distinct.trans h.distinct, h'.items.trans h.items, h'.tables.trans h.tables,
    h'.groups.trans h.groups, h'.extra.trans h.extra⟩

/-- Names are looked up in the frame only. -/
theorem resolver {st st' : Statement} (h : SameFrame st st') :
    Resolver.ofStatement st' = Resolver.ofStatement st := by
  unfold Resolver.ofStatement primaryTable?
  rw [h.items, h.tables]

end SameFrame

theorem sameFrame_apply (p : Patch) (st : Statement) : SameFrame st (p.apply st) :=
  ⟨rfl, rfl, rfl, rfl, rfl⟩

/-- A run touches no part of the frame. -/
theorem sameFrame_shapeAll (reqs : List Request) :
    ∀ st : Statement, SameFrame st (st.shapeAll reqs) := by
  induction reqs with
  | nil => exact SameFrame.refl
  | cons req rest ih =>
    intro st
    unfold shapeAll
    split
    · next st' hok =>
      obtain ⟨p, -, rfl⟩ := Request.shape_eq_ok_iff.1 hok
      exact (sameFrame_apply p st).trans (ih _)
    · exact ih st

/-- A patch that was worked out early does what its request does now. -/
theorem map_apply_patch {st now : Statement} (h : SameFrame st now) (req : Request) :
    (req.patch st).map (·.apply now) = req.shape now := by
  rw [← Request.patch_congr h.resolver]
  unfold Request.shape
  cases req.patch now <;> rfl

theorem shapeMixed_eq {st : Statement} (steps : List (Bool × Request)) :
    ∀ now : Statement, SameFrame st now →
      shapeMixed st now steps = now.shapeAll (steps.map (·.2)) := by
  induction steps with
  | nil => exact fun _ _ => rfl
  | cons step rest ih =>
    obtain ⟨early, req⟩ := step
    intro now h
    -- whether the patch was worked out early or not, the step does the same
    have hstep : (if early then (req.patch st).map (·.apply now) else req.shape now)
        = req.shape now := by
      split
      · exact map_apply_patch h req
      · rfl
    simp only [shapeMixed, shapeAll, List.map_cons, hstep]
    cases hs : req.shape now with
    | error cause => exact ih now h
    | ok next =>
      obtain ⟨p, -, rfl⟩ := Request.shape_eq_ok_iff.1 hs
      exact ih _ (h.trans (sameFrame_apply p now))

/-! ## What a run leaves -/

/-- One step of a run: the request is worked out against the start `st` of the run, although the
statement `now` may have other parts by then. -/
theorem step_cases {st now : Statement} (h : SameFrame st now) (req : Request) :
    (∃ cause, req.shape now = .error cause) ∨
      ∃ c, req.condition? (Resolver.ofStatement st) = .ok c ∧
        req.shape now = .ok (Patch.apply
          ⟨req.orderEntries? (Resolver.ofStatement st), Window.ofPage? req.limit req.page, c⟩
          now) := by
  cases hs : req.shape now with
  | error cause => exact Or.inl ⟨cause, rfl⟩
  | ok st' =>
    obtain ⟨p, hp, rfl⟩ := Request.shape_eq_ok_iff.1 hs
    obtain ⟨-, horder, hwindow, hc⟩ := Request.patch_eq_ok_iff.1 hp
    rw [h.resolver] at horder hc
    refine Or.inr ⟨p.condition, hc, ?_⟩
    rw [← horder, ← hwindow]

/-- A part that each accepted request replaces if it asks for one is, after a run, that of the last
accepted request which asks for one. -/
theorem part_shapeAll {β : Type} {st : Statement} (part : Statement → Option β)
    (asked : Request → Option β)
    (hpart : ∀ (now : Statement) (req : Request) (c : Option Expr),
      part (Patch.apply ⟨req.orderEntries? (Resolver.ofStatement st),
        Window.ofPage? req.limit req.page, c⟩ now) = (asked req).or (part now))
    (reqs : List Request) :
    ∀ now : Statement, SameFrame st now →
      part (now.shapeAll reqs) = ((now.accepted reqs).filterMap asked).getLast?.or (part now) := by
  induction reqs with
  | nil => exact fun _ _ => rfl
  | cons req rest ih =>
    intro now h
    rcases step_cases h req with ⟨cause, hs⟩ | ⟨c, -, hs⟩
    · simp only [shapeAll, accepted, hs]
      exact ih now h
    · simp only [shapeAll, accepted, hs]
      rw [ih _ (h.trans (sameFrame_apply _ now)), last_or_cons, hpart]

/-- The order after a run is that of the last accepted request which has one. -/
theorem order_shapeAll (st : Statement) (reqs : List Request) :
    (st.shapeAll reqs).order
      = ((st.accepted reqs).filterMap
          (·.orderEntries? (Resolver.ofStatement st))).getLast?.or st.order :=
  part_shapeAll Statement.order _ (fun _ _ _ => rfl) reqs st (SameFrame.refl st)

/-- The window after a run is that of the last accepted request which has one. -/
theorem window_shapeAll (st : Statement) (reqs : List Request) :
    (st.shapeAll reqs).window
      = ((st.accepted reqs).filterMap
          fun req => Window.ofPage? req.limit req.page).getLast?.or st.window :=
  @part_shapeAll _ st Statement.window _ (fun _ _ _ => rfl) reqs st (SameFrame.refl st)

/-- A new condition goes to the right end of the conjunction. -/
theorem all?_merge (existing new : Option Expr) (es : List Expr) :
    Expr.all? (((new.map (Expr.merge existing)).or existing).toList ++ es)
      = Expr.all? (existing.toList ++ (new.toList ++ es)) := by
  cases new with
  | none => rfl
  | some n =>
    cases existing with
    | none => rfl
    | some e => rfl

/-- The condition after a run is the conjunction, joined from the left, of the one at the start and
those of the accepted requests in turn. -/
theorem condition_shapeAll {st : Statement} (reqs : List Request) :
    ∀ now : Statement, SameFrame st now →
      ∃ conditions,
        (now.accepted reqs).mapM (·.condition? (Resolver.ofStatement st)) = .ok conditions ∧
          (now.shapeAll reqs).condition
            = Expr.all? (now.condition.toList ++ conditions.reduceOption) := by
  induction reqs with
  | nil =>
    intro now _
    -- the conjunction of the condition at the start alone is that condition
    refine ⟨[], rfl, ?_⟩
    cases hc : now.condition with
    | none => exact hc
    | some e => exact hc
  | cons req rest ih =>
    intro now h
    rcases step_cases h req with ⟨cause, hs⟩ | ⟨c, hc, hs⟩
    · -- a rejected request counts for nothing
      simp only [shapeAll, accepted, hs]
      exact ih now h
    · simp only [shapeAll, accepted, hs]
      -- the rest of the run starts from the statement with the new condition
      obtain ⟨conditions, hok, hall⟩ := ih _ (h.trans (sameFrame_apply _ now))
      refine ⟨c :: conditions, ?_, ?_⟩
      · rw [List.mapM_cons, hc, hok]
        rfl
      · rw [hall]
        refine (all?_merge now.condition c _).trans ?_
        cases c <;> rfl

/-- An accepted request has an order exactly if it names a key, and a window exactly if it sets a
page size. -/
theorem isSome_orderEntries? (req : Request) (r : Resolver) :
    (req.orderEntries? r).isSome = !req.order.isEmpty := by
  unfold Request.orderEntries?
  cases req.order.isEmpty <;> rfl

theorem isSome_ofPage? (req : Request) :
    (Window.ofPage? req.limit req.page).isSome = req.limit.isSome := by
  unfold Window.ofPage?
  cases req.limit <;> rfl

/-- What a run of requests leaves of a statement `st`. The frame stays. Order and window are those of
the last accepted request that has one, and the condition is the conjunction of the one at the start,
unchanged and leftmost, and those of the accepted requests in turn. All these parts are what the
requests come to in `st` itself. Whatever request is next, it does to the outcome what its patch for
`st` does, so that a run may also apply patches that were worked out before it began. -/
theorem shapeAll_parts (st : Statement) (reqs : List Request) :
    SameFrame st (st.shapeAll reqs)
      ∧ (st.shapeAll reqs).order
        = (((st.accepted reqs).filter (!·.order.isEmpty)).getLast?.bind
            (·.orderEntries? (Resolver.ofStatement st))).or st.order
      ∧ (st.shapeAll reqs).window
        = (((st.accepted reqs).filter (·.limit.isSome)).getLast?.bind
            fun req => Window.ofPage? req.limit req.page).or st.window
      ∧ (∃ conditions,
          (st.accepted reqs).mapM (·.condition? (Resolver.ofStatement st)) = .ok conditions ∧
            (st.shapeAll reqs).condition
              = Expr.all? (st.condition.toList ++ conditions.reduceOption))
      ∧ (∀ req : Request,
          req.shape (st.shapeAll reqs) = (req.patch st).map (·.apply (st.shapeAll reqs)))
      ∧ ∀ steps : List (Bool × Request),
          shapeMixed st st steps = st.shapeAll (steps.map (·.2)) := by
  refine ⟨sameFrame_shapeAll reqs st, ?_, ?_, condition_shapeAll reqs st (SameFrame.refl st),
    fun req => (map_apply_patch (sameFrame_shapeAll reqs st) req).symm,
    fun steps => shapeMixed_eq steps st (SameFrame.refl st)⟩
  · rw [order_shapeAll, getLast?_filterMap]
    simp only [isSome_orderEntries?]
  · rw [window_shapeAll, getLast?_filterMap]
    simp only [isSome_ofPage?]

end Statement

end QueryShaping
