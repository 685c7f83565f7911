import QueryShaping.Proofs.Meaning
import QueryShaping.Proofs.Stages

/-!
# Precedence of conjunctions

Written out, a condition is a line of tests, of the words AND and OR, and of the parentheses that the
marks ask for. Who reads the line knows nothing of the tree: AND binds more tightly than OR. So a
disjunction without a mark that stands directly in a conjunction is torn apart, and nothing else is.

## What this module delivers

- `Expr.line`, `Valuation.reading`: a condition as it is written out, and the value that the line has.
- `Expr.conjoined`: what stands directly in the conjunctions of a condition.
- `Expr.reading_line`: where no disjunction without a mark stands in a conjunction, the line means
  what the tree does.
- `Request.precedence_of_condition?`: what may stand without a mark in a conjunction of a condition
  that is built.
- `Request.patch_precedence`: the same for the conjunctions that applying a patch adds, and what it
  says about the line.
-/

set_option autoImplicit false

namespace QueryShaping

/-! ## Lines -/

/-- The signs of which a line consists. A node that is neither a conjunction nor a disjunction is one
sign. -/
inductive Sign where
  | test (e : Expr)
  | and
  | or
  | opening
  | closing

namespace Expr

/-- Signs between parentheses, where a mark asks for them. -/
def enclose (marked : Bool) (signs : List Sign) : List Sign :=
  if marked then .opening :: (signs ++ [.closing]) else signs

/-- A condition as it is written out. -/
def line : Expr → List Sign
  | .binary .and left right marked => enclose marked (left.line ++ .and :: right.line)
  | .binary .or left right marked => enclose marked (left.line ++ .or :: right.line)
  | e => [.test e]

/-- The direct operands of the conjunctions of a condition, at every depth. -/
def conjoined : Expr → List Expr
  | .binary op left right _ =>
    (if op = .and then [left, right] else []) ++ (left.conjoined ++ right.conjoined)
  | _ => []

/-- No disjunction without a mark stands directly in a conjunction. -/
def Tight (e : Expr) : Prop := ∀ x ∈ e.conjoined, ¬ x.Bare .or

end Expr

/-! ## Reading a line -/

/-- What a reader knows between two parentheses: the value of the alternatives before the last OR, and
the value of what has been read since. -/
structure Alternatives where
  before : Truth
  current : Truth

namespace Alternatives

/-- Nothing has been read yet. -/
def fresh : Alternatives := ⟨.no, .yes⟩

/-- The value of all that has been read. -/
def value (a : Alternatives) : Truth := a.before.or a.current

/-- One more part of the current alternative. -/
def meet (a : Alternatives) (t : Truth) : Alternatives := ⟨a.before, a.current.and t⟩

end Alternatives

/-- What a reader knows: the alternatives at the current place, and those around it from the inside
out. -/
structure Reader where
  here : Alternatives
  around : List Alternatives

namespace Valuation

variable (v : Valuation)

/-- Reads a sign. -/
def step (s : Reader) : Sign → Reader
  | .test e => ⟨s.here.meet (v.atom e), s.around⟩
  | .and => s
  | .or => ⟨⟨s.here.value, .yes⟩, s.around⟩
  | .opening => ⟨.fresh, s.here :: s.around⟩
  | .closing =>
    match s.around with
    | [] => s
    | outer :: around => ⟨outer.meet s.here.value, around⟩

/-- Reads signs from the left. -/
def run (signs : List Sign) (s : Reader) : Reader := signs.foldl v.step s

/-- The value of a line in a row: AND binds more tightly than OR, and parentheses before both. -/
def reading (signs : List Sign) : Truth := (v.run signs ⟨.fresh, []⟩).here.value

theorem run_append (xs ys : List Sign) (s : Reader) : v.run (xs ++ ys) s = v.run ys (v.run xs s) :=
  List.foldl_append

theorem run_cons (x : Sign) (xs : List Sign) (s : Reader) :
    v.run (x :: xs) s = v.run xs (v.step s x) := rfl

/-- At the start of an alternative the signs come to a value, whatever the alternatives before. -/
def ComesTo (signs : List Sign) (t : Truth) : Prop :=
  ∀ (before : Truth) (around : List Alternatives), ∃ after : Alternatives,
    v.run signs ⟨⟨before, .yes⟩, around⟩ = ⟨after, around⟩ ∧ after.value = before.or t

/-- Wherever they stand, the signs count as one part of an alternative with a value. -/
def CountsAs (signs : List Sign) (t : Truth) : Prop :=
  ∀ (here : Alternatives) (around : List Alternatives),
    v.run signs ⟨here, around⟩ = ⟨here.meet t, around⟩

variable {v} {signs xs ys : List Sign} {t u : Truth}

theorem CountsAs.comesTo (h : v.CountsAs signs t) : v.ComesTo signs t := by
  intro before around
  refine ⟨_, h _ _, ?_⟩
  rw [Alternatives.meet, Alternatives.value, Truth.yes_and]

/-- Between parentheses signs count as one part, whatever they are. -/
theorem ComesTo.enclosed (h : v.ComesTo signs t) :
    v.CountsAs (.opening :: (signs ++ [.closing])) t := by
  intro here around
  -- the parenthesis puts what is known here aside and starts afresh
  obtain ⟨after, hrun, hvalue⟩ := h .no (here :: around)
  rw [Truth.no_or] at hvalue
  rw [run_cons, run_append]
  show v.run [.closing] (v.run signs ⟨⟨.no, .yes⟩, here :: around⟩) = _
  rw [hrun, ← hvalue]
  rfl

theorem CountsAs.and (hx : v.CountsAs xs t) (hy : v.CountsAs ys u) :
    v.CountsAs (xs ++ .and :: ys) (t.and u) := by
  intro here around
  rw [run_append, hx, run_cons]
  show v.run ys ⟨here.meet t, around⟩ = _
  rw [hy, Alternatives.meet, Alternatives.meet, Alternatives.meet, Truth.and_assoc]

theorem ComesTo.or (hx : v.ComesTo xs t) (hy : v.ComesTo ys u) :
    v.ComesTo (xs ++ .or :: ys) (t.or u) := by
  intro before around
  obtain ⟨after, hrun, hvalue⟩ := hx before around
  obtain ⟨after', hrun', hvalue'⟩ := hy after.value around
  refine ⟨after', ?_, ?_⟩
  · rw [run_append, hrun, run_cons]
    exact hrun'
  · rw [hvalue', hvalue, Truth.or_assoc]

end Valuation

namespace Expr

variable {v : Valuation} {e left right : Expr} {op : Operator} {marked : Bool}

theorem tight_binary_iff :
    (binary op left right marked).Tight ↔
      (op = .and → ¬ left.Bare .or ∧ ¬ right.Bare .or) ∧ left.Tight ∧ right.Tight := by
  unfold Tight
  rw [conjoined, List.forall_mem_append, List.forall_mem_append]
  by_cases hop : op = .and
  · simp [hop]
  · simp [hop]

/-- The line of a condition comes to its value, and counts as one part unless the condition is a
disjunction without a mark. -/
theorem line_comesTo (h : e.Tight) :
    v.ComesTo e.line (e.truth v) ∧ (¬ e.Bare .or → v.CountsAs e.line (e.truth v)) := by
  have hpart {signs : List Sign} {t : Truth} {P : Prop} (hcounts : v.CountsAs signs t) :
      v.ComesTo signs t ∧ (P → v.CountsAs signs t) := ⟨hcounts.comesTo, fun _ => hcounts⟩
  induction e with
  | column c => exact hpart fun _ _ => rfl
  | literal l => exact hpart fun _ _ => rfl
  | foreign w => exact hpart fun _ _ => rfl
  | binary op left right marked ihl ihr =>
    -- an operand of AND has to count as one part, one of OR only to come to its value
    obtain ⟨hbare, hl, hr⟩ := tight_binary_iff.1 h
    obtain ⟨hl, hlpart⟩ := ihl hl
    obtain ⟨hr, hrpart⟩ := ihr hr
    cases op with
    | and =>
      obtain ⟨hlbare, hrbare⟩ := hbare rfl
      have hand := (hlpart hlbare).and (hrpart hrbare)
      cases marked with
      | false => exact hpart hand
      | true => exact hpart hand.comesTo.enclosed
    | or =>
      have hor := hl.or hr
      cases marked with
      | false => exact ⟨hor, fun hbare => absurd ⟨rfl, rfl⟩ hbare⟩
      | true => exact hpart hor.enclosed
    -- with any other operator the condition is one sign
    | _ => exact hpart fun _ _ => rfl

/-- Where no disjunction without a mark stands in a conjunction, the line means what the tree does. -/
theorem reading_line (h : e.Tight) : v.reading e.line = e.truth v := by
  obtain ⟨after, hrun, hvalue⟩ := (line_comesTo h).1 .no []
  show (v.run e.line ⟨⟨.no, .yes⟩, []⟩).here.value = _
  rw [hrun, hvalue, Truth.no_or]

end Expr

/-! ## Built conditions -/

namespace Expr

variable {a b e : Expr}

/-- A condition that may stand in a conjunction as it is. -/
def Sealed (e : Expr) : Prop := e.Tight ∧ ¬ e.Bare .or

theorem sealed_comparison (column : Column) (c : Comparison) (value : Literal) :
    (Resolver.comparison column c value).Sealed := by
  obtain ⟨hand, hor, -⟩ := Resolver.operator_comparison c value.isNull
  refine ⟨tight_binary_iff.2 ⟨fun h => absurd h hand, ?_, ?_⟩, fun h => hor (bare_compare_iff.1 h)⟩
  · exact fun x hx => nomatch hx
  · exact fun x hx => nomatch hx

theorem sealed_contains (column : Column) (text : String) :
    (Resolver.contains column text).Sealed := by
  refine ⟨tight_binary_iff.2 ⟨nofun, ?_, ?_⟩, nofun⟩
  · exact fun x hx => nomatch hx
  · exact fun x hx => nomatch hx

theorem Sealed.and (ha : a.Sealed) (hb : b.Sealed) : (a.and b).Sealed :=
  ⟨tight_binary_iff.2 ⟨fun _ => ⟨ha.2, hb.2⟩, ha.1, hb.1⟩, fun h => nomatch bare_and_iff.1 h⟩

theorem Tight.or (ha : a.Tight) (hb : b.Tight) : (a.or b).Tight :=
  tight_binary_iff.2 ⟨nofun, ha, hb⟩

/-- A mark seals a condition. -/
theorem Tight.mark (he : e.Tight) : e.mark.Sealed := by
  refine ⟨?_, not_bare_mark .or e⟩
  cases e with
  | binary op left right marked => exact tight_binary_iff.2 (tight_binary_iff.1 he)
  | _ => exact he

theorem Tight.markOr (he : e.Tight) : e.markOr.Sealed := by
  unfold Expr.markOr
  split
  · exact he.mark
  · next h => exact ⟨he, fun hbare => h hbare.1⟩

/-- A disjunction of sealed conditions has no mark only if there are several of them. -/
theorem tight_of_any? {es : List Expr} (h : any? es = some e) (hes : ∀ x ∈ es, x.Sealed) :
    e.Tight ∧ (e.Bare .or → 2 ≤ es.length) := by
  refine ⟨of_join? (fun _ _ => Tight.or) h fun x hx => (hes x hx).1, fun hbare => ?_⟩
  by_contra hfew
  obtain rfl := join?_of_length_le_one h (by omega)
  exact (hes e List.mem_cons_self).2 hbare

end Expr

namespace Resolver

open QueryShaping.Expr

variable {r : Resolver} {e : Expr}

theorem sealed_of_condition {c : Condition} (h : r.condition c = .ok e) : e.Sealed := by
  rcases condition_eq_ok_iff.1 h with ⟨_, _, -, -, rfl⟩ | ⟨_, _, -, -, hkey⟩
  · exact sealed_comparison _ _ _
  · -- the tuples of a key stand in a disjunction, and that is marked
    obtain ⟨-, -, es, joined, hes, hany, rfl⟩ := key_eq_ok_iff.1 hkey
    refine Tight.mark (of_join? (fun _ _ => Tight.or) hany ?_)
    refine forall_of_mapM_eq_ok hes fun _ _ ht => ?_
    exact (of_tuple sealed_comparison (fun _ _ => Sealed.and) ht).1

theorem sealed_of_group {conditions : List Condition} (h : r.group conditions = .ok e) :
    e.Sealed := by
  obtain ⟨es, hes, hall⟩ := group_eq_ok_iff.1 h
  exact of_join? (fun _ _ => Sealed.and) hall
    (forall_of_mapM_eq_ok hes fun _ _ => sealed_of_condition)

/-- Only a filter of several groups is a disjunction without a mark. -/
theorem tight_of_filter? {groups : List (List Condition)} (h : r.filter? groups = .ok (some e)) :
    e.Tight ∧ (e.Bare .or → 2 ≤ groups.length) := by
  obtain ⟨es, hes, hany⟩ := filter?_eq_ok_iff.1 h
  rw [((mapM_eq_ok_iff _ _ _).1 hes).length_eq]
  exact tight_of_any? hany (forall_of_mapM_eq_ok hes fun _ _ => sealed_of_group)

/-- Only a search of several attributes is a disjunction without a mark. -/
theorem tight_of_search? {searchable : List String} {text : String}
    (h : r.search? searchable text = some e) :
    e.Tight ∧ (e.Bare .or → 2 ≤ searchable.length) := by
  have hsealed : ∀ x ∈ searchable.map fun name => contains (r.resolve name) text, x.Sealed := by
    intro x hx
    obtain ⟨name, -, rfl⟩ := List.mem_map.1 hx
    exact sealed_contains _ _
  have htight := tight_of_any? h hsealed
  rwa [List.length_map] at htight

end Resolver

namespace Request

open QueryShaping.Expr

variable {req : Request} {r : Resolver} {e x : Expr}

/-- A condition is what the several groups of the filter become. -/
def FilterOr (req : Request) (r : Resolver) (x : Expr) : Prop :=
  2 ≤ req.filter.length ∧ r.filter? req.filter = .ok (some x)

/-- A condition is what the search of several attributes becomes, with no filter beside it. -/
def SearchOr (req : Request) (r : Resolver) (x : Expr) : Prop :=
  req.filter = [] ∧ 2 ≤ req.searchable.length ∧ req.searchPart? r = some x

theorem tight_of_searchPart? (h : req.searchPart? r = some e) :
    e.Tight ∧ (e.Bare .or → 2 ≤ req.searchable.length) := by
  obtain ⟨text, -, hsearch⟩ := Option.bind_eq_some_iff.1 h
  exact Resolver.tight_of_search? hsearch

/-- In the conjunctions of a condition that a request builds, only a filter of several groups stands
without a mark. The condition itself is a disjunction without a mark only if it is a filter or a search
alone. -/
theorem precedence_of_condition? (h : req.condition? r = .ok (some e)) :
    (∀ x ∈ e.conjoined, x.Bare .or → req.FilterOr r x) ∧
      (e.Bare .or → req.FilterOr r e ∨ req.SearchOr r e) := by
  rcases parts_of_condition? h with ⟨hfilter, -⟩ | ⟨hfilter, hsearch⟩ | ⟨f, s, hfilter, hsearch, rfl⟩
  · obtain ⟨htight, hbare⟩ := Resolver.tight_of_filter? hfilter
    exact ⟨fun x hx hor => absurd hor (htight x hx), fun hor => .inl ⟨hbare hor, hfilter⟩⟩
  · obtain ⟨htight, hbare⟩ := tight_of_searchPart? hsearch
    refine ⟨fun x hx hor => absurd hor (htight x hx), fun hor => .inr ?_⟩
    exact ⟨(r.filter?_eq_none_iff hfilter).1 rfl, hbare hor, hsearch⟩
  · obtain ⟨hf, hfbare⟩ := Resolver.tight_of_filter? hfilter
    have hs : s.markOr.Sealed := (tight_of_searchPart? hsearch).1.markOr
    refine ⟨?_, fun hor => nomatch bare_and_iff.1 hor⟩
    intro x hx hor
    -- the operands of this conjunction, and then those further down
    rcases List.mem_append.1 hx with hx | hx
    · rcases List.mem_pair.1 hx with rfl | rfl
      · exact ⟨hfbare hor, hfilter⟩
      · exact absurd hor hs.2
    · rcases List.mem_append.1 hx with hx | hx
      · exact absurd hor (hf x hx)
      · exact absurd hor (hs.1 x hx)

end Request

/-! ## Patches -/

/-- The direct operands of the conjunctions of a condition that may be absent. -/
def Expr.conjoined? (e : Option Expr) : List Expr := (e.map Expr.conjoined).getD []

/-- The direct operands of the conjunctions that applying a patch to a statement adds: those of its
condition, and the two conditions that are merged. -/
def Patch.joined (p : Patch) (st : Statement) : List Expr :=
  (match st.condition, p.condition with
    | some old, some new => [old, new]
    | _, _ => []) ++ Expr.conjoined? p.condition

theorem Patch.conjoined?_apply (p : Patch) (st : Statement) :
    (Expr.conjoined? (p.apply st).condition).Perm
      (Expr.conjoined? st.condition ++ p.joined st) := by
  show (Expr.conjoined? ((p.condition.map (Expr.merge st.condition)).or st.condition)).Perm _
  unfold Patch.joined
  cases st.condition with
  | none => cases p.condition <;> exact List.Perm.refl _
  | some old =>
    cases p.condition with
    | none =>
      show old.conjoined.Perm (old.conjoined ++ [])
      rw [List.append_nil]
    | some new =>
      show ([old, new] ++ (old.conjoined ++ new.conjoined)).Perm
        (old.conjoined ++ ([old, new] ++ new.conjoined))
      rw [← List.append_assoc, ← List.append_assoc]
      exact List.perm_append_comm.append_right _

namespace Request

open QueryShaping.Expr

/-- The conjunctions of a shaped statement are those that it had and those that are built. In a built
one a disjunction without a mark is the condition that the statement had, or what a filter of several
groups becomes, or what a search of several attributes becomes that is merged without a filter. Where
none is, the condition means what is read when it is written out. -/
theorem patch_precedence {req : Request} {st : Statement} {p : Patch} (h : req.patch st = .ok p) :
    (conjoined? (p.apply st).condition).Perm (conjoined? st.condition ++ p.joined st) ∧
      (∀ x ∈ p.joined st, x.Bare .or →
        st.condition = some x ∨ req.FilterOr (Resolver.ofStatement st) x ∨
          st.condition ≠ none ∧ req.SearchOr (Resolver.ofStatement st) x) ∧
      ((∀ x ∈ conjoined? st.condition ++ p.joined st, ¬ x.Bare .or) →
        ∀ (v : Valuation) (e : Expr), (p.apply st).condition = some e →
          v.reading e.line = e.truth v) := by
  obtain ⟨-, -, -, hcondition⟩ := patch_eq_ok_iff.1 h
  have hperm := p.conjoined?_apply st
  refine ⟨hperm, ?_, ?_⟩
  · intro x hx hor
    cases hnew : p.condition with
    | none =>
      rw [Patch.joined, hnew] at hx
      cases hold : st.condition <;> rw [hold] at hx <;> cases hx
    | some new =>
      rw [hnew] at hcondition
      obtain ⟨hinner, hroot⟩ := precedence_of_condition? hcondition
      rw [Patch.joined, hnew] at hx
      rcases List.mem_append.1 hx with hx | hx
      · cases hold : st.condition with
        | none =>
          rw [hold] at hx
          cases hx
        | some old =>
          rw [hold] at hx
          rcases List.mem_pair.1 hx with rfl | rfl
          · exact .inl rfl
          · rcases hroot hor with hfilter | hsearch
            · exact .inr (.inl hfilter)
            · exact .inr (.inr ⟨nofun, hsearch⟩)
      · exact .inr (.inl (hinner x hx hor))
  · -- the conjunctions of the result are the old and the new ones, so they are all tight
    intro hnone v e he
    apply reading_line
    intro x hx
    apply hnone x
    rw [he] at hperm
    exact hperm.mem_iff.1 hx

/-- A request for one of two keys in one group, beside another condition and a search. -/
def keyAndSearch : Request :=
  { empty with
    filter := [[⟨.composite ["a", "b"], .equal, .tuples [[.text "x", .null], [.null, .null]]⟩,
      ⟨.single "c", .notEqual, .scalar .null⟩]]
    searchable := ["a", "b"]
    search := some "x" }

/-- A statement that wants one of two columns to be null, with a mark. -/
def eitherNull : Statement :=
  { Statement.ofTable (.named "t" none) with
    condition := some (Expr.mark (.or
      (.compare .is (.column ⟨some "t", "a"⟩) (.literal .null))
      (.compare .is (.column ⟨some "t", "b"⟩) (.literal .null)))) }

/-- The disjunctions of keys and searches are sealed, so that nothing is torn apart. -/
theorem patch_precedence_keyAndSearch :
    ∃ p, keyAndSearch.patch eitherNull = .ok p ∧ (∀ x ∈ p.joined eitherNull, ¬ x.Bare .or) ∧
      ∃ e, (p.apply eitherNull).condition = some e ∧
        Valuation.nullRow.reading e.line = e.truth .nullRow := by
  refine ⟨_, rfl, ?_, _, rfl, ?_⟩
  · intro x hx hor
    rcases (@patch_precedence keyAndSearch eitherNull _ rfl).2.1 x hx hor with hold | hfilter | hsearch
    · obtain rfl := Option.some.inj hold
      exact absurd hor (not_bare_mark .or _)
    · exact absurd hfilter.1 (by decide)
    · exact absurd hsearch.2.1 (by decide)
  · exact (@patch_precedence keyAndSearch eitherNull _ rfl).2.2 (by decide) .nullRow _ rfl

/-- A request for rows in which one of two columns is null, by two groups. -/
def eitherOfTwo : Request :=
  { empty with filter := [[⟨.single "a", .equal, .scalar .null⟩], [⟨.single "b", .equal, .scalar .null⟩]] }

/-- A statement that wants a column not to be null. -/
def notNull : Statement :=
  { Statement.ofTable (.named "t" none) with
    condition := some (.compare .isNot (.column ⟨some "t", "c"⟩) (.literal .null)) }

/-- Two groups are merged with the condition of a statement without a mark, and the line then keeps
rows that the condition does not. -/
theorem shape_eitherOfTwo :
    ∃ st' old left right, eitherOfTwo.shape notNull = .ok st' ∧ notNull.condition = some old ∧
      st'.condition = some (.and old (.or left right)) ∧ (Expr.or left right).Bare .or ∧
      Valuation.nullRow.reading (Expr.and old (.or left right)).line = .yes ∧
      (Expr.and old (.or left right)).truth .nullRow = .no := by
  refine ⟨_, _, _, _, rfl, rfl, rfl, ?_, ?_, ?_⟩ <;> decide

end Request

end QueryShaping
