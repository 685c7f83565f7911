import Mathlib.Data.List.Forall2

/-!
# When steps that may fail succeed

A sequence of steps succeeds when each step does, with the results that the steps have.

## What this module delivers

- `bind_eq_ok_iff`, `then_eq_ok_iff`, `map_eq_ok_iff`: the success of two steps in a row.
- `mapM_eq_ok_iff`: the success of one step for each item of a list, item by item.
- `exists_of_mem_forall₂`: where a result of such steps comes from.
- `forall₂_of_related`: the same results for related items.
- `bind_eq_error_iff`, `mapM_eq_error_iff`: the failure of a sequence is that of its first step that
  fails.
- `map_eq_map_of_mapM_eq_ok`: a reading of the results that follows from each item alone is a reading
  of the items.
-/

set_option autoImplicit false

namespace QueryShaping

variable {ε α β γ : Type}

theorem bind_eq_ok_iff {x : Except ε α} {f : α → Except ε β} {b : β} :
    (x >>= f) = .ok b ↔ ∃ a, x = .ok a ∧ f a = .ok b := by
  cases x with
  | error e => simp [bind, Except.bind]
  | ok a => simp [bind, Except.bind]

/-- A step that has nothing to tell. -/
theorem then_eq_ok_iff {x : Except ε Unit} {y : Except ε β} {b : β} :
    (x >>= fun _ => y) = .ok b ↔ x = .ok () ∧ y = .ok b := by
  rw [bind_eq_ok_iff]
  exact ⟨fun ⟨_, hx, hy⟩ => ⟨hx, hy⟩, fun ⟨hx, hy⟩ => ⟨(), hx, hy⟩⟩

theorem map_eq_ok_iff {x : Except ε α} {f : α → β} {b : β} :
    f <$> x = .ok b ↔ ∃ a, x = .ok a ∧ f a = b := by
  cases x with
  | error e => simp [Functor.map, Except.map]
  | ok a => simp [Functor.map, Except.map]

/-- One step for each item of a list succeeds when every item's step does. -/
theorem mapM_eq_ok_iff (f : α → Except ε β) :
    ∀ (xs : List α) (ys : List β),
      xs.mapM f = .ok ys ↔ List.Forall₂ (fun x y => f x = .ok y) xs ys := by
  intro xs
  induction xs with
  | nil =>
    intro ys
    cases ys <;> simp [pure, Except.pure]
  | cons x xs ih =>
    intro ys
    rw [List.mapM_cons, bind_eq_ok_iff]
    cases ys with
    | nil => simp [bind_eq_ok_iff, pure, Except.pure]
    | cons y ys =>
      rw [List.forall₂_cons, ← ih]
      constructor
      · rintro ⟨a, ha, h⟩
        obtain ⟨rest, hrest, heq⟩ := bind_eq_ok_iff.1 h
        cases heq
        exact ⟨ha, hrest⟩
      · rintro ⟨hy, hys⟩
        exact ⟨y, hy, bind_eq_ok_iff.2 ⟨ys, hys, rfl⟩⟩

theorem exists_mapM_eq_ok_iff (f : α → Except ε β) (xs : List α) :
    (∃ ys, xs.mapM f = .ok ys) ↔ ∀ x ∈ xs, ∃ y, f x = .ok y := by
  simp only [mapM_eq_ok_iff]
  induction xs with
  | nil => simp
  | cons x xs ih =>
    rw [List.forall_mem_cons, ← ih]
    constructor
    · rintro ⟨ys, h⟩
      cases h with
      | cons hy hys => exact ⟨⟨_, hy⟩, _, hys⟩
    · rintro ⟨⟨y, hy⟩, ys, hys⟩
      exact ⟨y :: ys, .cons hy hys⟩

/-- Each result has the item that it comes from. -/
theorem exists_of_mem_forall₂ {R : α → β → Prop} {xs : List α} {ys : List β}
    (h : List.Forall₂ R xs ys) {y : β} (hy : y ∈ ys) : ∃ x ∈ xs, R x y := by
  induction h with
  | nil => cases hy
  | cons hxy _ ih =>
    rcases List.mem_cons.1 hy with rfl | hy
    · exact ⟨_, List.mem_cons_self, hxy⟩
    · obtain ⟨x, hx, hxy⟩ := ih hy
      exact ⟨x, List.mem_cons_of_mem _ hx, hxy⟩

/-! ## Failure -/

/-- What is known of each item carries over to the related item of another list. -/
theorem forall₂_of_related {R : α → β → Prop} {P : α → γ → Prop} {Q : β → γ → Prop} {xs : List α}
    {ys : List β} {cs : List γ} (hxy : List.Forall₂ R xs ys) (hx : List.Forall₂ P xs cs)
    (h : ∀ x ∈ xs, ∀ y ∈ ys, R x y → ∀ c, P x c → Q y c) : List.Forall₂ Q ys cs := by
  induction hxy generalizing cs with
  | nil =>
    cases hx
    exact .nil
  | @cons x y xs ys hfirst _ ih =>
    cases hx with
    | cons hpx hrest =>
      refine .cons (h x List.mem_cons_self y List.mem_cons_self hfirst _ hpx) (ih hrest ?_)
      exact fun x hx y hy => h x (List.mem_cons_of_mem _ hx) y (List.mem_cons_of_mem _ hy)

theorem bind_eq_error_iff {x : Except ε α} {f : α → Except ε β} {e : ε} :
    (x >>= f) = .error e ↔ x = .error e ∨ ∃ a, x = .ok a ∧ f a = .error e := by
  cases x with
  | error e' => simp [bind, Except.bind]
  | ok a => simp [bind, Except.bind]

/-- A step fails exactly if it does not succeed. -/
theorem exists_eq_error_iff {x : Except ε α} : (∃ e, x = .error e) ↔ ¬ ∃ a, x = .ok a := by
  cases x <;> simp

/-- One step for each item of a list fails where the first item's step does. -/
theorem mapM_eq_error_iff (f : α → Except ε β) (e : ε) :
    ∀ xs : List α, xs.mapM f = .error e ↔
      ∃ before x after, xs = before ++ x :: after ∧ (∀ y ∈ before, ∃ b, f y = .ok b) ∧
        f x = .error e := by
  intro xs
  induction xs with
  | nil => simp [pure, Except.pure]
  | cons x xs ih =>
    rw [List.mapM_cons, bind_eq_error_iff]
    constructor
    · rintro (hx | ⟨b, hb, h⟩)
      · exact ⟨[], x, xs, rfl, by simp, hx⟩
      · rcases bind_eq_error_iff.1 h with hxs | ⟨_, _, h⟩
        · obtain ⟨before, y, after, rfl, hbefore, hy⟩ := ih.1 hxs
          exact ⟨x :: before, y, after, rfl, List.forall_mem_cons.2 ⟨⟨b, hb⟩, hbefore⟩, hy⟩
        · cases h
    · rintro ⟨before, y, after, hxs, hbefore, hy⟩
      cases before with
      | nil =>
        obtain ⟨rfl, rfl⟩ := List.cons.inj hxs
        exact Or.inl hy
      | cons z before =>
        obtain ⟨rfl, rfl⟩ := List.cons.inj hxs
        obtain ⟨⟨b, hb⟩, hbefore⟩ := List.forall_mem_cons.1 hbefore
        have hrest := ih.2 ⟨before, y, after, rfl, hbefore, hy⟩
        exact Or.inr ⟨b, hb, bind_eq_error_iff.2 (Or.inl hrest)⟩

/-! ## Readings of results -/

/-- What each result says follows from its item, so the list of results says what the items say. -/
theorem map_eq_map_of_mapM_eq_ok {f : α → Except ε β} {g : β → γ} {h : α → γ} {xs : List α}
    {ys : List β} (hf : xs.mapM f = .ok ys) (hgh : ∀ x y, f x = .ok y → g y = h x) :
    ys.map g = xs.map h := by
  have hall := (mapM_eq_ok_iff f xs ys).1 hf
  induction hall with
  | nil => rfl
  | cons hxy hrest ih =>
    rw [List.map_cons, List.map_cons, hgh _ _ hxy, ih ((mapM_eq_ok_iff f _ _).2 hrest)]

end QueryShaping
