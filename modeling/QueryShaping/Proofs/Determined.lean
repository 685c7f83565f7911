import QueryShaping.Proofs.Meaning
import QueryShaping.Proofs.Patterns
import QueryShaping.Proofs.Stages

/-!
# What a built condition tells about its request

Groups, conditions, tuples and searched attributes are all joined into one tree. Nothing is lost in
this: the lists can be read off the tree again, because no part of a list is itself an operator of the
kind that joins the list, unless it is marked. A condition thus determines what was asked for, up to
the names that were used for the columns.

Trees are compared here up to a relation of their literals, since there are two equalities: being the
same tree, and being equal with numbers compared as numbers.

## What this module delivers

- `Test`, `Request.tests`, `Request.sought?`: what a request asks for, with columns for names.
- `Expr.Alike`: trees that differ in their literals only, and there as a relation allows.
- `Expr.chain`, `Expr.chain_join?`: the parts of a joined list.
- `Resolver.alike_of_key`, `Resolver.alike_of_condition`, `Resolver.alike_of_group`,
  `Resolver.alike_of_filter?`, `Resolver.alike_of_search?`: stage by stage, alike conditions come
  from alike lists.
- `Request.condition?_determines`: equal conditions come from equal filters and equal searches.
-/

set_option autoImplicit false

namespace QueryShaping

/-! ## What is asked for -/

/-- What is tested: the columns that an attribute denotes. -/
inductive Target where
  | single (column : Column)
  | composite (columns : List Column)
  deriving DecidableEq

/-- A condition of a filter, with columns for the names. -/
structure Test where
  target : Target
  comparison : Comparison
  operand : Operand
  deriving DecidableEq

/-- The columns that an attribute denotes. -/
def Attribute.denoted (r : Resolver) : Attribute → Target
  | .single name => .single (r.resolve name)
  | .composite names => .composite (names.map r.resolve)

/-- The condition with columns for the names. -/
def Condition.test (r : Resolver) (c : Condition) : Test :=
  ⟨c.target.denoted r, c.comparison, c.operand⟩

namespace Request

/-- The groups of the filter, with columns for the names. -/
def tests (req : Request) (r : Resolver) : List (List Test) :=
  req.filter.map fun conditions => conditions.map (·.test r)

/-- The columns that are searched and the text; without a text or an attribute nothing is. -/
def sought? (req : Request) (r : Resolver) : Option (List Column × String) :=
  req.searchText?.bind fun text =>
    if req.searchable.isEmpty then none else some (req.searchable.map r.resolve, text)

end Request

/-! ## Alike trees -/

section Alike

variable (R : Literal → Literal → Prop)

/-- Operands whose literals a relation allows to differ. -/
inductive Operand.Alike : Operand → Operand → Prop where
  | scalar {l m : Literal} : R l m → Alike (.scalar l) (.scalar m)
  | tuples {ts us : List (List Literal)} : List.Forall₂ (List.Forall₂ R) ts us →
      Alike (.tuples ts) (.tuples us)

/-- Tests whose literals a relation allows to differ. -/
structure Test.Alike (t u : Test) : Prop where
  target : t.target = u.target
  comparison : t.comparison = u.comparison
  operand : t.operand.Alike R u.operand

/-- Conditions without foreign parts whose literals a relation allows to differ. -/
inductive Expr.Alike : Expr → Expr → Prop where
  | column (c : Column) : Alike (.column c) (.column c)
  | literal {l m : Literal} : R l m → Alike (.literal l) (.literal m)
  | binary {left right left' right' : Expr} (op : Operator) (marked : Bool) : Alike left left' →
      Alike right right' → Alike (.binary op left right marked) (.binary op left' right' marked)

/-- A relation of literals under which a text stays the same and null is related to null alone. -/
structure Literal.Telling : Prop where
  isNull : ∀ l m, R l m → l.isNull = m.isNull
  text : ∀ s t, R (.text s) (.text t) → s = t

variable {R} {e e' a b a' b' : Expr} {op op' : Operator}

namespace Expr

theorem Alike.isMarked (h : e.Alike R e') : e.isMarked = e'.isMarked := by
  cases h <;> rfl

theorem Alike.bare_iff (h : e.Alike R e') : e.Bare op ↔ e'.Bare op := by
  cases h <;> exact Iff.rfl

theorem Alike.of_compare (h : (compare op a b).Alike R (compare op' a' b')) :
    op = op' ∧ a.Alike R a' ∧ b.Alike R b' := by
  cases h with
  | binary _ _ ha hb => exact ⟨rfl, ha, hb⟩

/-- Equal conditions without foreign parts are alike. -/
theorem Plain.alike_self (hR : ∀ l, R l l) (h : e.Plain) : e.Alike R e := by
  induction e with
  | column c => exact .column c
  | literal l => exact .literal (hR l)
  | foreign w => exact h.elim
  | binary op left right marked ihl ihr => exact .binary op marked (ihl h.1) (ihr h.2)

/-- So are those that are equal with numbers compared as numbers. -/
theorem Plain.alike_of_same (h : e.Plain) :
    ∀ {e' : Expr}, e.same e' = true → e.Alike (fun l m => (l == m) = true) e' := by
  induction e with
  | column c =>
    intro e' hsame
    cases e' with
    | column d =>
      obtain rfl : c = d := by simpa [same] using hsame
      exact .column c
    | _ => cases hsame
  | literal l =>
    intro e' hsame
    cases e' with
    | literal m => exact .literal hsame
    | _ => cases hsame
  | foreign w => exact h.elim
  | binary op left right marked ihl ihr =>
    intro e' hsame
    cases e' with
    | binary op' left' right' marked' =>
      simp only [same, Bool.and_eq_true, beq_iff_eq] at hsame
      obtain ⟨⟨⟨rfl, hleft⟩, hright⟩, rfl⟩ := hsame
      exact .binary op marked (ihl h.1 hleft) (ihr h.2 hright)
    | _ => cases hsame

/-! ## Reading lists off a tree -/

/-- The parts of a list that an operator joined from the left. -/
def chain (op : Operator) : Expr → List Expr
  | .binary op' left right false =>
    if op' = op then left.chain op ++ [right] else [.binary op' left right false]
  | e => [e]

theorem chain_compare (op : Operator) (a b : Expr) :
    (compare op a b).chain op = a.chain op ++ [b] := if_pos rfl

theorem chain_of_not_bare (h : ¬ e.Bare op) : e.chain op = [e] := by
  match e with
  | .binary op' left right false => exact if_neg fun hop => h ⟨congrArg some hop, rfl⟩
  | .binary _ _ _ true => rfl
  | .column _ => rfl
  | .literal _ => rfl
  | .foreign _ => rfl

/-- The first condition of a list must not be a chain itself; the others stand on the right. -/
theorem chain_join? {es : List Expr} (h : join? (compare op) es = some e)
    (hes : ∀ x ∈ es, ¬ x.Bare op) : e.chain op = es := by
  -- each further condition stands on the right, at the end of the chain
  have hfold : ∀ (rest : List Expr) (a : Expr),
      (rest.foldl (compare op) a).chain op = a.chain op ++ rest := by
    intro rest
    induction rest with
    | nil =>
      intro a
      exact (List.append_nil _).symm
    | cons b rest ih =>
      intro a
      rw [List.foldl_cons, ih, chain_compare, List.append_assoc]
      rfl
  cases es with
  | nil => cases h
  | cons a rest =>
    obtain rfl := Option.some.inj h
    rw [hfold, chain_of_not_bare (hes a List.mem_cons_self)]
    rfl

theorem Alike.chain (h : e.Alike R e') (op : Operator) :
    List.Forall₂ (Alike R) (e.chain op) (e'.chain op) := by
  induction h with
  | column c => exact .cons (.column c) .nil
  | literal hR => exact .cons (.literal hR) .nil
  | @binary left right left' right' op' marked hleft hright ihleft ihright =>
    have hwhole : List.Forall₂ (Alike R) [.binary op' left right marked]
        [.binary op' left' right' marked] := .cons (.binary op' marked hleft hright) .nil
    cases marked with
    | true => exact hwhole
    | false =>
      unfold Expr.chain
      by_cases hop : op' = op
      · rw [if_pos hop, if_pos hop]
        exact List.rel_append ihleft (.cons hright .nil)
      · rw [if_neg hop, if_neg hop]
        exact hwhole

/-- Alike joined lists are alike item by item. -/
theorem Alike.of_join? {es es' : List Expr} (h : join? (compare op) es = some e)
    (h' : join? (compare op) es' = some e') (hes : ∀ x ∈ es, ¬ x.Bare op)
    (hes' : ∀ x ∈ es', ¬ x.Bare op) (he : e.Alike R e') : List.Forall₂ (Alike R) es es' := by
  have hchain := he.chain op
  rwa [chain_join? h hes, chain_join? h' hes'] at hchain

/-- Alike joined lists come from lists whose items correspond, where alike items do. -/
theorem Alike.of_joined {α β : Type} {f : α → Except Rejection Expr} {g : β → Except Rejection Expr}
    {S : α → β → Prop} {xs : List α} {ys : List β} {es es' : List Expr} (hf : xs.mapM f = .ok es)
    (hg : ys.mapM g = .ok es') (h : join? (compare op) es = some e)
    (h' : join? (compare op) es' = some e') (hnot : ∀ x e, f x = .ok e → ¬ e.Bare op)
    (hnot' : ∀ y e, g y = .ok e → ¬ e.Bare op) (he : e.Alike R e')
    (hS : ∀ x y e e', f x = .ok e → g y = .ok e' → e.Alike R e' → S x y) : List.Forall₂ S xs ys := by
  have hitems := he.of_join? h h' (forall_of_mapM_eq_ok hf hnot) (forall_of_mapM_eq_ok hg hnot')
  have hxs := (mapM_eq_ok_iff f xs es).1 hf
  have hys := (mapM_eq_ok_iff g ys es').1 hg
  -- from here on only the two correspondences and the alike items matter
  clear h h' he hf hg
  induction hitems generalizing xs ys with
  | nil =>
    cases hxs
    cases hys
    exact .nil
  | cons hitem _ ih =>
    cases hxs with
    | cons hx hxs =>
      cases hys with
      | cons hy hys => exact .cons (hS _ _ _ _ hx hy hitem) (ih hxs hys)

/-! ## Marks -/

/-- Takes the mark from a binary operator. -/
def unmark : Expr → Expr
  | .binary op left right _ => .binary op left right false
  | e => e

theorem Alike.unmark (h : e.Alike R e') : e.unmark.Alike R e'.unmark := by
  cases h with
  | column c => exact .column c
  | literal hR => exact .literal hR
  | binary op marked hleft hright => exact .binary op false hleft hright

theorem Bare.unmark (h : e.Bare op) : e.unmark = e := by
  cases e with
  | binary op' left right marked =>
    obtain rfl : marked = false := h.2
    rfl
  | _ => rfl

theorem Bare.unmark_mark (h : e.Bare op) : e.mark.unmark = e := by
  cases e with
  | binary op' left right marked => exact h.unmark
  | _ => rfl

theorem Bare.unmark_markOr (h : e.Bare op) : e.markOr.unmark = e := by
  unfold markOr
  split
  · exact h.unmark_mark
  · exact h.unmark

theorem Bare.isMarked_mark (h : e.Bare op) : e.mark.isMarked = true := by
  cases e with
  | binary op' left right marked => rfl
  | _ => cases h.1

theorem bare_compare (op : Operator) (a b : Expr) : (compare op a b).Bare op := ⟨rfl, rfl⟩

end Expr

end Alike

/-! ## Stages -/

namespace Resolver

open QueryShaping.Expr

variable {R : Literal → Literal → Prop} {r : Resolver} {e e' : Expr}

theorem operator_inj {withNull : Bool} {c c' : Comparison}
    (h : c.operator withNull = c'.operator withNull) : c = c' := by
  revert h
  cases withNull <;> cases c <;> cases c' <;> decide

theorem alike_of_comparison (hR : Literal.Telling R) {column column' : Column} {c c' : Comparison}
    {value value' : Literal}
    (h : (comparison column c value).Alike R (comparison column' c' value')) :
    column = column' ∧ c = c' ∧ R value value' := by
  obtain ⟨hop, hcolumn, hvalue⟩ := h.of_compare
  cases hcolumn
  cases hvalue with
  | literal hvalue =>
    rw [hR.isNull _ _ hvalue] at hop
    exact ⟨rfl, operator_inj hop, hvalue⟩

/-- A test of a filter is no chain: a comparison is neither a conjunction nor a disjunction. -/
theorem not_bare_comparison {op : Operator} (hop : op = .and ∨ op = .or) (column : Column)
    (c : Comparison) (value : Literal) : ¬ (comparison column c value).Bare op := by
  intro h
  obtain ⟨hand, hor, -⟩ := operator_comparison c value.isNull
  obtain rfl := bare_compare_iff.1 h
  exact hop.elim hand hor

/-- Nor is a key, which is marked. -/
theorem not_bare_of_condition {op : Operator} (hop : op = .and ∨ op = .or) {c : Condition}
    (h : r.condition c = .ok e) : ¬ e.Bare op := by
  rcases condition_eq_ok_iff.1 h with ⟨_, _, -, -, rfl⟩ | ⟨_, _, -, -, hkey⟩
  · exact not_bare_comparison hop _ _ _
  · obtain ⟨-, -, _, joined, -, -, rfl⟩ := key_eq_ok_iff.1 hkey
    exact not_bare_mark op joined

theorem not_bare_or_of_group {conditions : List Condition} (h : r.group conditions = .ok e) :
    ¬ e.Bare .or := by
  obtain ⟨es, hes, hall⟩ := group_eq_ok_iff.1 h
  exact of_join? (fun _ _ _ _ => nofun) hall
    (forall_of_mapM_eq_ok hes fun _ _ => not_bare_of_condition (.inr rfl))

theorem not_bare_or_of_tuple {names : List String} {columns : List Column} {values : List Literal}
    (h : tuple names columns values = .ok e) : ¬ e.Bare .or :=
  of_tuple (P := fun e => ¬ e.Bare .or) (not_bare_comparison (.inr rfl)) (fun _ _ _ _ => nofun) h

theorem alike_of_zipWith (hR : Literal.Telling R) {columns : List Column} :
    ∀ {columns' : List Column} {values values' : List Literal}, values.length = columns.length →
      values'.length = columns'.length →
      List.Forall₂ (Expr.Alike R) (List.zipWith (comparison · .equal ·) columns values)
        (List.zipWith (comparison · .equal ·) columns' values') →
      columns = columns' ∧ List.Forall₂ R values values' := by
  induction columns with
  | nil =>
    intro columns' values values' hlength hlength' h
    obtain rfl := List.length_eq_zero_iff.1 hlength
    cases columns' with
    | nil =>
      obtain rfl := List.length_eq_zero_iff.1 hlength'
      exact ⟨rfl, .nil⟩
    | cons column' columns' =>
      obtain ⟨value', values', rfl⟩ := List.exists_cons_of_length_eq_add_one hlength'
      cases h
  | cons column columns ih =>
    intro columns' values values' hlength hlength' h
    obtain ⟨value, values, rfl⟩ := List.exists_cons_of_length_eq_add_one hlength
    cases columns' with
    | nil => cases h
    | cons column' columns' =>
      obtain ⟨value', values', rfl⟩ := List.exists_cons_of_length_eq_add_one hlength'
      cases h with
      | cons hfirst hrest =>
        obtain ⟨rfl, -, hvalue⟩ := alike_of_comparison hR hfirst
        obtain ⟨rfl, hvalues⟩ := ih (by simpa using hlength) (by simpa using hlength') hrest
        exact ⟨rfl, .cons hvalue hvalues⟩

theorem alike_of_tuple (hR : Literal.Telling R) {names names' : List String}
    {columns columns' : List Column} {values values' : List Literal}
    (h : tuple names columns values = .ok e) (h' : tuple names' columns' values' = .ok e')
    (he : e.Alike R e') : columns = columns' ∧ List.Forall₂ R values values' := by
  obtain ⟨hlength, hall⟩ := tuple_eq_ok_iff.1 h
  obtain ⟨hlength', hall'⟩ := tuple_eq_ok_iff.1 h'
  have hnot (columns : List Column) (values : List Literal) :
      ∀ x ∈ List.zipWith (comparison · .equal ·) columns values, ¬ x.Bare .and := by
    intro x hx
    obtain ⟨i, hi, rfl⟩ := List.mem_iff_getElem.1 hx
    rw [List.getElem_zipWith]
    exact not_bare_comparison (.inl rfl) _ _ _
  exact alike_of_zipWith hR hlength hlength' (he.of_join? hall hall' (hnot _ _) (hnot _ _))

/-- The disjunction of the tuples of a key is an operator without a mark, before it is marked. -/
theorem bare_of_tuples {names : List String} {columns : List Column} {tuples : List (List Literal)}
    {es : List Expr} (hes : tuples.mapM (tuple names columns) = .ok es)
    (hany : Expr.any? es = some e) : ∃ op, e.Bare op := by
  have hcompare (op : Operator) (a b : Expr) : ∃ op', (compare op a b).Bare op' :=
    ⟨op, bare_compare op a b⟩
  apply of_join? (fun a b _ _ => hcompare .or a b) hany
  refine forall_of_mapM_eq_ok (P := fun e => ∃ op, e.Bare op) hes fun values e h => ?_
  exact of_tuple (P := fun e => ∃ op, e.Bare op) (fun _ _ _ => hcompare _ _ _)
    (fun a b _ _ => hcompare .and a b) h

theorem alike_of_key (hR : Literal.Telling R) {names names' : List String} {c c' : Comparison}
    {tuples tuples' : List (List Literal)} (h : r.key names c tuples = .ok e)
    (h' : r.key names' c' tuples' = .ok e') (he : e.Alike R e') :
    names.map r.resolve = names'.map r.resolve ∧ c = c' ∧
      List.Forall₂ (List.Forall₂ R) tuples tuples' := by
  obtain ⟨rfl, -, es, joined, hes, hany, rfl⟩ := key_eq_ok_iff.1 h
  obtain ⟨rfl, -, es', joined', hes', hany', rfl⟩ := key_eq_ok_iff.1 h'
  -- neither disjunction was marked before, so the marks come off
  obtain ⟨_, hbare⟩ := bare_of_tuples hes hany
  obtain ⟨_, hbare'⟩ := bare_of_tuples hes' hany'
  have hjoined := he.unmark
  rw [hbare.unmark_mark, hbare'.unmark_mark] at hjoined
  have htuples := hjoined.of_joined hes hes' hany hany' (fun _ _ => not_bare_or_of_tuple)
    (fun _ _ => not_bare_or_of_tuple) (fun _ _ _ _ => alike_of_tuple hR)
  refine ⟨?_, rfl, htuples.imp fun _ _ h => h.2⟩
  -- there is a tuple, and it tells the columns
  cases htuples with
  | nil =>
    cases hes
    cases hany
  | cons hfirst _ => exact hfirst.1

theorem alike_of_condition (hR : Literal.Telling R) {c c' : Condition} (h : r.condition c = .ok e)
    (h' : r.condition c' = .ok e') (he : e.Alike R e') : (c.test r).Alike R (c'.test r) := by
  obtain ⟨target, c, operand⟩ := c
  obtain ⟨target', c', operand'⟩ := c'
  have hmarks {names : List String} {c : Comparison} {tuples : List (List Literal)} {e : Expr}
      (h : r.key names c tuples = .ok e) : e.isMarked = true := by
    obtain ⟨-, -, es, joined, hes, hany, rfl⟩ := key_eq_ok_iff.1 h
    obtain ⟨_, hbare⟩ := bare_of_tuples hes hany
    exact hbare.isMarked_mark
  rcases condition_eq_ok_iff.1 h with ⟨name, value, rfl, rfl, rfl⟩ | ⟨names, tuples, rfl, rfl, hkey⟩
  · rcases condition_eq_ok_iff.1 h' with ⟨name', value', rfl, rfl, rfl⟩ | ⟨_, _, rfl, rfl, hkey'⟩
    · obtain ⟨hcolumn, rfl, hvalue⟩ := alike_of_comparison hR he
      exact ⟨congrArg Target.single hcolumn, rfl, .scalar hvalue⟩
    · -- a key is marked, and a comparison is not
      cases he.isMarked.trans (hmarks hkey')
  · rcases condition_eq_ok_iff.1 h' with ⟨_, _, rfl, rfl, rfl⟩ | ⟨names', tuples', rfl, rfl, hkey'⟩
    · cases he.isMarked.symm.trans (hmarks hkey)
    · obtain ⟨hcolumns, rfl, htuples⟩ := alike_of_key hR hkey hkey' he
      exact ⟨congrArg Target.composite hcolumns, rfl, .tuples htuples⟩

theorem alike_of_group (hR : Literal.Telling R) {conditions conditions' : List Condition}
    (h : r.group conditions = .ok e) (h' : r.group conditions' = .ok e') (he : e.Alike R e') :
    List.Forall₂ (Test.Alike R) (conditions.map (·.test r)) (conditions'.map (·.test r)) := by
  obtain ⟨es, hes, hall⟩ := group_eq_ok_iff.1 h
  obtain ⟨es', hes', hall'⟩ := group_eq_ok_iff.1 h'
  rw [List.forall₂_map_left_iff, List.forall₂_map_right_iff]
  exact he.of_joined hes hes' hall hall' (fun _ _ => not_bare_of_condition (.inl rfl))
    (fun _ _ => not_bare_of_condition (.inl rfl)) (fun _ _ _ _ => alike_of_condition hR)

theorem alike_of_filter? (hR : Literal.Telling R) {groups groups' : List (List Condition)}
    (h : r.filter? groups = .ok (some e)) (h' : r.filter? groups' = .ok (some e'))
    (he : e.Alike R e') :
    List.Forall₂ (List.Forall₂ (Test.Alike R))
      (groups.map fun conditions => conditions.map (·.test r))
      (groups'.map fun conditions => conditions.map (·.test r)) := by
  obtain ⟨es, hes, hany⟩ := filter?_eq_ok_iff.1 h
  obtain ⟨es', hes', hany'⟩ := filter?_eq_ok_iff.1 h'
  rw [List.forall₂_map_left_iff, List.forall₂_map_right_iff]
  exact he.of_joined hes hes' hany hany' (fun _ _ => not_bare_or_of_group)
    (fun _ _ => not_bare_or_of_group) (fun _ _ _ _ => alike_of_group hR)

theorem alike_of_contains (hR : Literal.Telling R) {column column' : Column} {text text' : String}
    (h : (contains column text).Alike R (contains column' text')) :
    column = column' ∧ text = text' := by
  obtain ⟨-, hcolumn, hpattern⟩ := h.of_compare
  cases hcolumn
  cases hpattern with
  | literal hpattern => exact ⟨rfl, Pattern.containing_inj (hR.text _ _ hpattern)⟩

theorem alike_of_search? (hR : Literal.Telling R) {searchable searchable' : List String}
    {text text' : String} (h : r.search? searchable text = some e)
    (h' : r.search? searchable' text' = some e') (he : e.Alike R e') :
    searchable.map r.resolve = searchable'.map r.resolve ∧ text = text' := by
  have hnot (searchable : List String) (text : String) :
      ∀ x ∈ searchable.map (fun name => contains (r.resolve name) text), ¬ x.Bare .or := by
    intro x hx
    obtain ⟨name, -, rfl⟩ := List.mem_map.1 hx
    exact nofun
  have hparts := he.of_join? h h' (hnot _ _) (hnot _ _)
  rw [List.forall₂_map_left_iff, List.forall₂_map_right_iff] at hparts
  refine ⟨?_, ?_⟩
  · rw [← List.forall₂_eq_eq_eq, List.forall₂_map_left_iff, List.forall₂_map_right_iff]
    exact hparts.imp fun _ _ hpart => (alike_of_contains hR hpart).1
  · -- there is an attribute, and its pattern tells the text
    cases hparts with
    | nil => cases h
    | cons hfirst _ => exact (alike_of_contains hR hfirst).2

end Resolver

/-! ## Filter and search together -/

namespace Expr

/-- A pattern test stands somewhere in the condition. -/
def HasLike : Expr → Prop
  | .binary op left right _ => op = .like ∨ left.HasLike ∨ right.HasLike
  | _ => False

theorem hereditary_hasLike : Hereditary HasLike where
  and _ _ ha _ := .inr (.inl ha)
  or _ _ ha _ := .inr (.inl ha)
  mark e he := by
    cases e with
    | binary op left right marked => exact he
    | _ => exact he

theorem hereditary_not_hasLike : Hereditary fun e => ¬ e.HasLike where
  and _ _ ha hb h := h.elim nofun fun h => h.elim ha hb
  or _ _ ha hb h := h.elim nofun fun h => h.elim ha hb
  mark e he := by
    cases e with
    | binary op left right marked => exact he
    | _ => exact he

theorem not_hasLike_comparison (column : Column) (c : Comparison) (value : Literal) :
    ¬ (Resolver.comparison column c value).HasLike := by
  obtain ⟨-, -, hlike⟩ := Resolver.operator_comparison c value.isNull
  exact fun h => h.elim hlike fun h => h.elim id id

theorem Alike.hasLike_iff {R : Literal → Literal → Prop} {e e' : Expr} (h : e.Alike R e') :
    e.HasLike ↔ e'.HasLike := by
  induction h with
  | column c => exact Iff.rfl
  | literal _ => exact Iff.rfl
  | binary op marked _ _ ihl ihr => exact or_congr Iff.rfl (or_congr ihl ihr)

end Expr

namespace Request

open QueryShaping.Expr

variable {R : Literal → Literal → Prop} {req req' : Request} {r : Resolver} {e e' : Expr}

/-- The filter alone, the search alone, and both are told apart by pattern tests and by the operator at
the root. -/
theorem told_of_condition? (h : req.condition? r = .ok (some e)) :
    (r.filter? req.filter = .ok (some e) ∧ req.searchPart? r = none ∧ ¬ e.HasLike) ∨
      (r.filter? req.filter = .ok none ∧ req.searchPart? r = some e ∧ e.HasLike ∧ ¬ e.Bare .and) ∨
      ∃ f s, r.filter? req.filter = .ok (some f) ∧ req.searchPart? r = some s ∧
        e = f.and s.markOr ∧ e.HasLike := by
  have hlike {s : Expr} (hsearch : req.searchPart? r = some s) : s.HasLike :=
    of_searchPart? (fun _ _ => .inl rfl) hereditary_hasLike.or hsearch
  rcases parts_of_condition? h with ⟨hfilter, hnone⟩ | ⟨hnone, hsearch⟩ | ⟨f, s, hfilter, hsearch, rfl⟩
  · exact .inl ⟨hfilter, hnone, hereditary_not_hasLike.of_filter? not_hasLike_comparison hfilter⟩
  · refine .inr (.inl ⟨hnone, hsearch, hlike hsearch, ?_⟩)
    exact of_searchPart? (P := fun e => ¬ e.Bare .and) (fun _ _ => nofun)
      (fun _ _ _ _ hor => nomatch bare_or_iff.1 hor) hsearch
  · refine .inr (.inr ⟨f, s, hfilter, hsearch, rfl, .inr (.inr ?_)⟩)
    exact hereditary_hasLike.markOr (hlike hsearch)

theorem tests_eq_nil (h : r.filter? req.filter = .ok none) : req.tests r = [] := by
  rw [tests, (r.filter?_eq_none_iff h).1 rfl]
  rfl

theorem sought?_eq_none (h : req.searchPart? r = none) : req.sought? r = none := by
  refine Option.bind_eq_none_iff.2 fun text htext => ?_
  have hnil := (r.search?_eq_none_iff _ _).1 (Option.bind_eq_none_iff.1 h text htext)
  rw [if_pos (List.isEmpty_iff.2 hnil)]

theorem exists_sought? (h : req.searchPart? r = some e) :
    ∃ text, r.search? req.searchable text = some e ∧
      req.sought? r = some (req.searchable.map r.resolve, text) := by
  obtain ⟨text, htext, hsearch⟩ := Option.bind_eq_some_iff.1 h
  have hne : ¬ req.searchable.isEmpty = true := fun hnil => by
    rw [(r.search?_eq_none_iff _ _).2 (List.isEmpty_iff.1 hnil)] at hsearch
    cases hsearch
  refine ⟨text, hsearch, ?_⟩
  rw [sought?, htext, Option.bind_some, if_neg hne]

theorem sought?_eq_of_alike (hR : Literal.Telling R) (h : req.searchPart? r = some e)
    (h' : req'.searchPart? r = some e') (he : e.Alike R e') : req.sought? r = req'.sought? r := by
  obtain ⟨text, hsearch, hsought⟩ := exists_sought? h
  obtain ⟨text', hsearch', hsought'⟩ := exists_sought? h'
  obtain ⟨hcolumns, rfl⟩ := Resolver.alike_of_search? hR hsearch hsearch' he
  rw [hsought, hsought', hcolumns]

/-- A search is marked beside a filter only if it is a disjunction, and that mark can be taken off. -/
theorem alike_of_markOr (h : req.searchPart? r = some e) (h' : req'.searchPart? r = some e')
    (he : e.markOr.Alike R e'.markOr) : e.Alike R e' := by
  have hbare {req : Request} {e : Expr} (h : req.searchPart? r = some e) : ∃ op, e.Bare op :=
    of_searchPart? (P := fun e => ∃ op, e.Bare op) (fun _ _ => ⟨_, bare_compare .like _ _⟩)
      (fun a b _ _ => ⟨_, bare_compare .or a b⟩) h
  obtain ⟨_, hs⟩ := hbare h
  obtain ⟨_, hs'⟩ := hbare h'
  have hunmarked := he.unmark
  rwa [hs.unmark_markOr, hs'.unmark_markOr] at hunmarked

/-- Requests that build alike conditions ask for alike filters and for the same search. -/
theorem alike_of_condition? (hR : Literal.Telling R) (h : req.condition? r = .ok (some e))
    (h' : req'.condition? r = .ok (some e')) (he : e.Alike R e') :
    List.Forall₂ (List.Forall₂ (Test.Alike R)) (req.tests r) (req'.tests r) ∧
      req.sought? r = req'.sought? r := by
  -- of the nine pairs only those of the same kind can be alike
  rcases told_of_condition? h with
    ⟨hf, hs, hlike⟩ | ⟨hf, hs, hlike, hroot⟩ | ⟨f, s, hf, hs, rfl, hlike⟩
  · rcases told_of_condition? h' with ⟨hf', hs', -⟩ | ⟨-, -, hlike', -⟩ | ⟨_, _, -, -, rfl, hlike'⟩
    · rw [sought?_eq_none hs, sought?_eq_none hs']
      exact ⟨Resolver.alike_of_filter? hR hf hf' he, rfl⟩
    · exact absurd (he.hasLike_iff.2 hlike') hlike
    · exact absurd (he.hasLike_iff.2 hlike') hlike
  · rcases told_of_condition? h' with ⟨-, -, hlike'⟩ | ⟨hf', hs', -, -⟩ | ⟨_, _, -, -, rfl, -⟩
    · exact absurd (he.hasLike_iff.1 hlike) hlike'
    · rw [tests_eq_nil hf, tests_eq_nil hf']
      exact ⟨.nil, sought?_eq_of_alike hR hs hs' he⟩
    · exact absurd (he.bare_iff.2 (bare_compare .and _ _)) hroot
  · rcases told_of_condition? h' with
      ⟨-, -, hlike'⟩ | ⟨-, -, -, hroot'⟩ | ⟨f', s', hf', hs', rfl, -⟩
    · exact absurd (he.hasLike_iff.1 hlike) hlike'
    · exact absurd (he.bare_iff.1 (bare_compare .and _ _)) hroot'
    · obtain ⟨-, hfilters, hsearches⟩ := he.of_compare
      exact ⟨Resolver.alike_of_filter? hR hf hf' hfilters,
        sought?_eq_of_alike hR hs hs' (alike_of_markOr hs hs' hsearches)⟩

/-- Being the same literal, and being equal with numbers compared as numbers. -/
theorem telling_eq : Literal.Telling (· = ·) where
  isNull _ _ h := congrArg Literal.isNull h
  text _ _ h := Literal.text.inj h

theorem telling_same : Literal.Telling fun l m => (l == m) = true where
  isNull l m h := by
    cases l with
    | null =>
      cases m with
      | null => rfl
      | _ => cases h
    | _ =>
      cases m with
      | null => cases h
      | _ => rfl
  text s t h := eq_of_beq (show (s == t) = true from h)

theorem eq_of_test_alike {t u : Test} (h : t.Alike (· = ·) u) : t = u := by
  obtain ⟨target, c, operand⟩ := t
  obtain ⟨target', c', operand'⟩ := u
  obtain ⟨rfl, rfl, hoperand⟩ := h
  cases hoperand with
  | scalar hvalue =>
    obtain rfl := hvalue
    rfl
  | tuples htuples =>
    rw [List.forall₂_eq_eq_eq, List.forall₂_eq_eq_eq] at htuples
    obtain rfl := htuples
    rfl

/-- Two requests for which a statement gives the same condition have the same filter and the same
search, when their names are replaced by columns. If the conditions are only equal with numbers
compared as numbers, so are the filters. -/
theorem condition?_determines {st : Statement} {req req' : Request} {c c' : Option Expr}
    (h : req.condition? (Resolver.ofStatement st) = .ok c)
    (h' : req'.condition? (Resolver.ofStatement st) = .ok c') :
    (c = c' → req.tests (Resolver.ofStatement st) = req'.tests (Resolver.ofStatement st) ∧
        req.sought? (Resolver.ofStatement st) = req'.sought? (Resolver.ofStatement st)) ∧
      ((c == c') = true →
        List.Forall₂ (List.Forall₂ (Test.Alike fun l m => (l == m) = true))
            (req.tests (Resolver.ofStatement st)) (req'.tests (Resolver.ofStatement st)) ∧
          req.sought? (Resolver.ofStatement st) = req'.sought? (Resolver.ofStatement st)) := by
  have habsent (hnone : req.condition? (Resolver.ofStatement st) = .ok none)
      (hnone' : req'.condition? (Resolver.ofStatement st) = .ok none) :
      req.tests (Resolver.ofStatement st) = [] ∧ req'.tests (Resolver.ofStatement st) = [] ∧
        req.sought? (Resolver.ofStatement st) = req'.sought? (Resolver.ofStatement st) := by
    obtain ⟨hf, hs⟩ := parts_of_condition?_none hnone
    obtain ⟨hf', hs'⟩ := parts_of_condition?_none hnone'
    exact ⟨tests_eq_nil hf, tests_eq_nil hf', (sought?_eq_none hs).trans (sought?_eq_none hs').symm⟩
  refine ⟨?_, ?_⟩
  · rintro rfl
    cases c with
    | none =>
      obtain ⟨htests, htests', hsought⟩ := habsent h h'
      exact ⟨htests.trans htests'.symm, hsought⟩
    | some e =>
      have he := (plain_of_condition? h).alike_self fun l => (rfl : l = l)
      obtain ⟨htests, hsought⟩ := alike_of_condition? telling_eq h h' he
      refine ⟨?_, hsought⟩
      rw [← List.forall₂_eq_eq_eq]
      refine htests.imp fun ts us hts => ?_
      rw [← List.forall₂_eq_eq_eq]
      exact hts.imp fun _ _ => eq_of_test_alike
  · intro hsame
    cases c with
    | none =>
      cases c' with
      | none =>
        obtain ⟨htests, htests', hsought⟩ := habsent h h'
        rw [htests, htests']
        exact ⟨.nil, hsought⟩
      | some e' => cases hsame
    | some e =>
      cases c' with
      | none => cases hsame
      | some e' =>
        exact alike_of_condition? telling_same h h' ((plain_of_condition? h).alike_of_same hsame)

/-- A statement with an alias for one of its columns. -/
def aliased : Statement :=
  { Statement.ofTable (.named "t" none) with items := [⟨⟨some "t", "a"⟩, some "x"⟩] }

/-- A request for a key and a search that name a column by its alias, or not. -/
def byName (name : String) : Request :=
  { empty with
    filter := [[⟨.composite [name, "b"], .equal, .tuples [[.text "1", .null]]⟩]]
    searchable := [name]
    search := some "50%" }

/-- Whatever a column is called, the condition tells which was meant. -/
theorem condition?_determines_aliased :
    (byName "x").condition? (Resolver.ofStatement aliased)
        = (byName "a").condition? (Resolver.ofStatement aliased) ∧
      (byName "x").tests (Resolver.ofStatement aliased)
        = (byName "a").tests (Resolver.ofStatement aliased) ∧
      (byName "x").sought? (Resolver.ofStatement aliased)
        = (byName "a").sought? (Resolver.ofStatement aliased) :=
  ⟨rfl, (@condition?_determines aliased (byName "x") (byName "a") _ _ rfl rfl).1 rfl⟩

end Request

end QueryShaping
