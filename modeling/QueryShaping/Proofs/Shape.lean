import QueryShaping.Proofs.Success
import QueryShaping.Shaping.Patch

/-!
# What a patch is made of

A request is worked out against a statement through what the statement's names mean alone, and the
outcome is a patch of three independent parts.

## What this module delivers

- `Request.patch_eq_ok_iff`: when there is a patch, and each of its parts.
- `Request.shape_eq_ok_iff`: a statement is shaped exactly by its patch.
- `Request.patch_congr`: statements whose names mean the same have the same patch, or the request is
  rejected for the same cause.
-/

set_option autoImplicit false

namespace QueryShaping

namespace Request

variable {req : Request}

/-- Everything that a patch is: a request is worked out into its parts, and only its condition can
be the cause of a rejection once no limit for groups is asked for. -/
theorem patch_eq_ok_iff {st : Statement} {p : Patch} :
    req.patch st = .ok p ↔
      req.limitPer = none ∧
        p.order = req.orderEntries? (Resolver.ofStatement st) ∧
        p.window = Window.ofPage? req.limit req.page ∧
        req.condition? (Resolver.ofStatement st) = .ok p.condition := by
  obtain ⟨order, window, condition⟩ := p
  unfold patch
  cases hlimit : req.limitPer with
  | some value => simp
  | none =>
    simp only [Option.isSome_none, Bool.false_eq_true, if_false, true_and]
    rw [bind_eq_ok_iff]
    constructor
    · rintro ⟨c, hc, hp⟩
      obtain ⟨rfl, rfl, rfl⟩ := Patch.mk.inj (Except.ok.inj hp)
      exact ⟨rfl, rfl, hc⟩
    · rintro ⟨rfl, rfl, hc⟩
      exact ⟨condition, hc, rfl⟩

theorem shape_eq_ok_iff {st st' : Statement} :
    req.shape st = .ok st' ↔ ∃ p, req.patch st = .ok p ∧ p.apply st = st' := by
  unfold shape
  rw [bind_eq_ok_iff]
  constructor
  · rintro ⟨p, hp, h⟩
    exact ⟨p, hp, Except.ok.inj h⟩
  · rintro ⟨p, hp, h⟩
    exact ⟨p, hp, congrArg Except.ok h⟩

/-- A patch depends on the names of a statement only. -/
theorem patch_congr {st st' : Statement}
    (h : Resolver.ofStatement st = Resolver.ofStatement st') : req.patch st = req.patch st' := by
  unfold patch
  rw [h]

end Request

end QueryShaping
