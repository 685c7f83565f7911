import QueryShaping.Proofs.Rejected

/-!
# The numbers of a mismatch

A condition that holds another number of values than its attribute takes is rejected with the two
numbers. They are counted differently in the three places where this is found out: tuples against
one name, names against one value, and names against the values of a tuple. Only the last two
numbers differ by the very test that finds the mismatch. Of the others one can meet the other at
one.

## What this module delivers

- `Request.FirstFaulty`: the condition for which a request is rejected.
- `Condition.Counted`: what is counted where a condition is rejected for its numbers.
- `Condition.Even`: the conditions that are rejected with the same number twice.
- `Request.shape_arity_iff`: the numbers of a mismatch differ exactly if the first faulty condition
  is not such a one, and a message says the same number twice exactly if they do not.
- `Request.shape_oneTuple`: a text that expects one value and found one.
-/

set_option autoImplicit false

namespace QueryShaping

/-! ## Numbers in messages -/

/-- What comes after the last separator of a list is determined. -/
theorem append_sep_inj {α : Type} {sep : α} {before before' after after' : List α}
    (hafter : sep ∉ after) (hafter' : sep ∉ after')
    (h : before ++ sep :: after = before' ++ sep :: after') :
    before = before' ∧ after = after' := by
  rcases List.append_eq_append_iff.1 h with ⟨rest, hbefore, hrest⟩ | ⟨rest, hbefore, hrest⟩
  · cases rest with
    | nil => simpa [eq_comm, hbefore] using hrest
    | cons x rest =>
      -- the other separator would stand in what comes after this one
      obtain ⟨-, rfl⟩ := List.cons.inj hrest
      exact absurd (by simp) hafter
  · cases rest with
    | nil => simpa [eq_comm, hbefore] using hrest
    | cons x rest =>
      obtain ⟨-, rfl⟩ := List.cons.inj hrest
      exact absurd (by simp) hafter'

theorem space_notMem_toDigits (n : Nat) : ' ' ∉ Nat.toDigits 10 n := fun hmem =>
  absurd (Nat.isDigit_of_mem_toDigits (by decide) (by decide) hmem) (by decide)

theorem toDigits_inj {m n : Nat} (h : Nat.toDigits 10 m = Nat.toDigits 10 n) : m = n := by
  rw [← Nat.ofDigitChars_ten_toDigits (n := m), h, Nat.ofDigitChars_ten_toDigits]

namespace Rejection

/-- The wording of a mismatch. -/
def mismatch (subject : String) (expected found : Nat) : String :=
  s!"filter on {subject} expects {expected} value(s), found {found}"

theorem toList_mismatch (subject : String) (expected found : Nat) :
    (mismatch subject expected found).toList =
      ("filter on ".toList ++ subject.toList ++ " expects".toList ++
        ' ' :: Nat.toDigits 10 expected) ++ " value(s), found".toList ++
          ' ' :: Nat.toDigits 10 found := by
  show ("filter on " ++ subject ++ " expects " ++ expected.repr ++ " value(s), found " ++
    found.repr).toList = _
  simp

/-- The numbers of a mismatch can be told from its wording. -/
theorem mismatch_inj {subject subject' : String} {expected expected' found found' : Nat}
    (h : mismatch subject expected found = mismatch subject' expected' found') :
    expected = expected' ∧ found = found' := by
  have hlist := congrArg String.toList h
  simp only [toList_mismatch] at hlist
  obtain ⟨hfront, hfound⟩ :=
    append_sep_inj (space_notMem_toDigits found) (space_notMem_toDigits found') hlist
  obtain ⟨-, hexpected⟩ := append_sep_inj (space_notMem_toDigits expected)
    (space_notMem_toDigits expected') (List.append_cancel_right hfront)
  exact ⟨toDigits_inj hexpected, toDigits_inj hfound⟩

/-- A message says the same number twice exactly if the two numbers are the same. -/
theorem message_arity_even_iff {target : Attribute} {expected found : Nat} :
    (∃ subject n, (Rejection.arity target expected found).message = mismatch subject n n) ↔
      expected = found := by
  constructor
  · rintro ⟨subject, n, h⟩
    have hmismatch : mismatch target.title expected found = mismatch subject n n := h
    obtain ⟨rfl, rfl⟩ := mismatch_inj hmismatch
    rfl
  · rintro rfl
    exact ⟨target.title, expected, rfl⟩

end Rejection

/-! ## Conditions -/

namespace Condition

/-- What is counted where a condition is rejected for its numbers: against one name the tuples,
against one value the names, and otherwise the names and the values of a tuple of another length. -/
def Counted (c : Condition) (expected found : Nat) : Prop :=
  match c.target, c.operand with
  | .single _, .scalar _ => False
  | .single _, .tuples tuples => expected = 1 ∧ found = tuples.length
  | .composite names, .scalar _ => expected = names.length ∧ found = 1
  | .composite names, .tuples tuples =>
    expected = names.length ∧ (∃ t ∈ tuples, found = t.length) ∧ found ≠ expected

/-- One name with one tuple, or a key of one name with one value. -/
def Even (c : Condition) : Prop :=
  match c.target, c.operand with
  | .single _, .tuples tuples => tuples.length = 1
  | .composite names, .scalar _ => names.length = 1
  | _, _ => False

/-- A condition that is rejected has a fault. -/
theorem Offends.faulty {c : Condition} {cause : Rejection} (h : c.Offends cause) : c.Faulty := by
  -- any meaning of the names does
  let r : Resolver := ⟨[], none⟩
  by_contra hsound
  obtain ⟨e, he⟩ := r.exists_condition_iff.2 hsound
  cases he.symm.trans (r.condition_eq_error_iff.2 h)

/-- The numbers of a mismatch are those that are counted. -/
theorem Offends.counted {c : Condition} {target : Attribute} {expected found : Nat}
    (h : c.Offends (.arity target expected found)) :
    target = c.target ∧ c.Counted expected found := by
  cases h with
  | manyForOne name _ tuples => exact ⟨rfl, rfl, rfl⟩
  | oneForMany names _ value => exact ⟨rfl, rfl, rfl⟩
  | @length names before after t _ _ ht => exact ⟨rfl, rfl, ⟨t, by simp, rfl⟩, ht⟩

theorem Counted.eq_iff {c : Condition} {expected found : Nat} (h : c.Counted expected found) :
    expected = found ↔ c.Even := by
  obtain ⟨target, _, operand⟩ := c
  cases target with
  | single name =>
    cases operand with
    | scalar value => exact h.elim
    | tuples tuples =>
      obtain ⟨rfl, rfl⟩ := h
      exact eq_comm
  | composite names =>
    cases operand with
    | scalar value =>
      obtain ⟨rfl, rfl⟩ := h
      exact Iff.rfl
    | tuples tuples =>
      obtain ⟨-, -, hne⟩ := h
      exact iff_of_false hne.symm id

/-- Where the numbers meet, they are one. -/
theorem Counted.eq_one {c : Condition} {n : Nat} (h : c.Counted n n) : n = 1 := by
  obtain ⟨target, _, operand⟩ := c
  cases target with
  | single name =>
    cases operand with
    | scalar value => exact h.elim
    | tuples tuples => exact h.1
  | composite names =>
    cases operand with
    | scalar value => exact h.2
    | tuples tuples => exact absurd rfl h.2.2

/-- Such a condition is rejected for its numbers. -/
theorem Even.offends {c : Condition} (h : c.Even) : c.Offends (.arity c.target 1 1) := by
  obtain ⟨target, comparison, operand⟩ := c
  cases target with
  | single name =>
    cases operand with
    | scalar value => exact h.elim
    | tuples tuples =>
      have hone : tuples.length = 1 := h
      simpa only [hone] using Offends.manyForOne name comparison tuples
  | composite names =>
    cases operand with
    | scalar value =>
      have hone : names.length = 1 := h
      simpa only [hone] using Offends.oneForMany names comparison value
    | tuples tuples => exact h.elim

end Condition

/-! ## Requests -/

namespace Request

open QueryShaping.Condition

/-- The first faulty condition of a filter without an empty group before it. A request is rejected
for it, unless it asks for a limit for groups of rows. -/
def FirstFaulty (req : Request) (c : Condition) : Prop :=
  req.limitPer = none ∧ ∃ before pre post after,
    req.filter = before ++ (pre ++ c :: post) :: after ∧ (∀ g ∈ before, Sound g) ∧
      (∀ d ∈ pre, ¬ d.Faulty) ∧ c.Faulty

/-- A mismatch is that of the first faulty condition. -/
theorem shape_eq_error_arity_iff {req : Request} {st : Statement} {target : Attribute}
    {expected found : Nat} :
    req.shape st = .error (.arity target expected found) ↔
      ∃ c, req.FirstFaulty c ∧ c.Offends (.arity target expected found) := by
  rw [shape_eq_error_iff_patch, patch_eq_error_iff]
  constructor
  · intro h
    cases h with
    | group hlimit hfilter hbefore hconditions =>
      cases hconditions with
      | condition hpre hc =>
        exact ⟨_, ⟨hlimit, _, _, _, _, hfilter, hbefore, hpre, hc.faulty⟩, hc⟩
  · rintro ⟨c, ⟨hlimit, before, pre, post, after, hfilter, hbefore, hpre, -⟩, hc⟩
    exact .group hlimit hfilter hbefore (.condition hpre hc)

/-- The numbers of a mismatch are those that are counted at the first faulty condition. They differ,
for all that is wrong with a request, exactly if that condition is neither one name with one tuple
nor a key of one name with one value; where they do not differ, both are one. A message says that a
number of values is expected and was found exactly if they do not differ. -/
theorem shape_arity_iff (req : Request) (st : Statement) :
    ((∀ target expected found, req.shape st = .error (.arity target expected found) →
        expected ≠ found) ↔ ∀ c, req.FirstFaulty c → ¬ c.Even) ∧
      ∀ target expected found, req.shape st = .error (.arity target expected found) →
        (∃ c, req.FirstFaulty c ∧ target = c.target ∧ c.Counted expected found) ∧
        (expected = found → expected = 1) ∧
        ((∃ subject n,
            (Rejection.arity target expected found).message = Rejection.mismatch subject n n) ↔
          expected = found) := by
  simp only [shape_eq_error_arity_iff]
  refine ⟨⟨fun h c hfirst heven => ?_, ?_⟩, ?_⟩
  · exact h _ _ _ ⟨c, hfirst, heven.offends⟩ rfl
  · rintro h target expected found ⟨c, hfirst, hc⟩ heq
    exact h c hfirst (hc.counted.2.eq_iff.1 heq)
  · rintro target expected found ⟨c, hfirst, hc⟩
    obtain ⟨htarget, hcounted⟩ := hc.counted
    refine ⟨⟨c, hfirst, htarget, hcounted⟩, ?_, Rejection.message_arity_even_iff⟩
    rintro rfl
    exact hcounted.eq_one

/-- A request that compares one name with one tuple of two values. -/
def oneTuple : Request :=
  Request.empty.withGroup [⟨.single "a", .equal,
    .tuples [[.number (.int ⟨1, by decide, by decide⟩), .number (.int ⟨2, by decide, by decide⟩)]]⟩]

/-- It is rejected because one value is expected, and one was found. -/
theorem shape_oneTuple :
    oneTuple.shape .empty = .error (.arity (.single "a") 1 1) ∧
      (Rejection.arity (.single "a") 1 1).message = "filter on a expects 1 value(s), found 1" :=
  ⟨rfl, rfl⟩

end Request

end QueryShaping
