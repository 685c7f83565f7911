import QueryShaping.Proofs.Leaves

/-!
# What the names of a request denote

A statement declares names by the aliases of its selected columns. The aliases are collected once, in
a list in which each stands once, and every part of a request is then worked out with that list. So a
name denotes what a scan of the selected columns finds for it: the first column that declares it, or
else the column of that name in the first table.

## What this module delivers

- `Statement.denoted`: the scan.
- `Resolver.lookup_foldl_declare`: the list of aliases finds what the scan finds.
- `Resolver.resolve_ofStatement`: a name is resolved to what it denotes.
- `Wording`, `Request.wordings`: the tests of a request, with names.
- `Request.leaves_of_condition?`: the tests of a condition are those of its request, with what the
  names denote.
- `Statement.denoted_everywhere`: what a name denotes, what has no influence on it, and that every
  column which a request writes is what the name denotes that stands there.
-/

set_option autoImplicit false

namespace QueryShaping

/-! ## The scan -/

/-- The column that a name denotes in a statement: that of the first selected column with the name as
its alias. Without one it is the column of that name in the first table, which goes by its alias, or
else by its own name. -/
def Statement.denoted (st : Statement) (name : String) : Column :=
  match st.items.find? fun item => item.aliasName = some name with
  | some item => item.column
  | none => ⟨st.tables.head?.bind fun t => t.aliasName.or t.name, name⟩

namespace Resolver

/-! ## Aliases -/

/-- One more declaration counts for its name only, and only if the name was not declared before. -/
theorem lookup_declare (aliases : List (String × Column)) (item : SelectItem) (name : String) :
    (declare aliases item).lookup name
      = (aliases.lookup name).or (if item.aliasName = some name then some item.column else none) := by
  unfold declare
  cases halias : item.aliasName with
  | none => simp
  | some declared =>
    dsimp only
    by_cases hname : declared = name
    · subst hname
      cases hlookup : aliases.lookup declared with
      | some column => simp [hlookup]
      | none => simp [hlookup, List.lookup_append]
    · -- whether the alias is new or not, it is not the name
      have hother : (if some declared = some name then some item.column else none) = none :=
        if_neg fun h => hname (Option.some.inj h)
      rw [hother, Option.or_none]
      split
      · rfl
      · have hbeq : (name == declared) = false := beq_false_of_ne (Ne.symm hname)
        rw [List.lookup_append, List.lookup_cons, hbeq]
        exact Option.or_none

/-- The list of aliases finds what a scan finds, after those that were declared before. -/
theorem lookup_foldl_declare (items : List SelectItem) (name : String) :
    ∀ aliases : List (String × Column), (items.foldl declare aliases).lookup name
      = (aliases.lookup name).or
          ((items.find? fun item => item.aliasName = some name).map (·.column)) := by
  induction items with
  | nil => exact fun aliases => (Option.or_none).symm
  | cons item rest ih =>
    intro aliases
    rw [List.foldl_cons, ih, lookup_declare, Option.or_assoc]
    by_cases hname : item.aliasName = some name
    · simp [hname]
    · simp [hname]

/-- A name is resolved to the column that it denotes. -/
theorem resolve_ofStatement (st : Statement) : (ofStatement st).resolve = st.denoted := by
  funext name
  show ((st.items.foldl declare []).lookup name).getD _ = _
  rw [lookup_foldl_declare, Statement.denoted]
  cases st.items.find? fun item => item.aliasName = some name <;> rfl

end Resolver

/-! ## What has no influence -/

/-- A scan passes over an item if it would have stopped before it. -/
theorem find?_append_cons {α : Type} {p : α → Bool} {before after : List α} {x : α}
    (h : p x = true → ∃ y ∈ before, p y = true) :
    (before ++ x :: after).find? p = (before ++ after).find? p := by
  rw [List.find?_append, List.find?_append]
  cases hx : p x with
  | false => rw [List.find?_cons_of_neg (by simp [hx])]
  | true =>
    obtain ⟨y, hy, hpy⟩ := h hx
    cases hfind : before.find? p with
    | none => exact absurd hpy (by simpa using List.find?_eq_none.1 hfind y hy)
    | some found => rfl

namespace Statement

variable {st : Statement}

/-- A column without an alias declares nothing, and neither does one whose alias was declared
before. -/
theorem denoted_without {before after : List SelectItem} {item : SelectItem}
    (h : item.aliasName = none ∨ ∃ earlier ∈ before, earlier.aliasName = item.aliasName) :
    denoted { st with items := before ++ after }
      = denoted { st with items := before ++ item :: after } := by
  funext name
  have hfind : (before ++ item :: after).find? (fun item => item.aliasName = some name)
      = (before ++ after).find? fun item => item.aliasName = some name := by
    apply find?_append_cons
    intro hitem
    have hname : item.aliasName = some name := of_decide_eq_true hitem
    rcases h with hnone | ⟨earlier, hmem, hsame⟩
    · cases hnone.symm.trans hname
    · exact ⟨earlier, hmem, decide_eq_true (hsame.trans hname)⟩
  simp only [denoted, hfind]

/-- Columns that are selected after all others change nothing for names that are declared. -/
theorem denoted_append {name : String} (more : List SelectItem)
    (h : ∃ item ∈ st.items, item.aliasName = some name) :
    denoted { st with items := st.items ++ more } name = st.denoted name := by
  obtain ⟨item, hmem, hname⟩ := h
  have hsome : (st.items.find? fun item => item.aliasName = some name).isSome = true :=
    List.find?_isSome.2 ⟨item, hmem, decide_eq_true hname⟩
  simp only [denoted, List.find?_append, Option.or_of_isSome hsome]

end Statement

/-! ## What a request writes -/

/-- A test as a request words it: a name, an operator and a value. -/
structure Wording where
  name : String
  operator : Operator
  value : Literal

/-- The test, with what its name denotes. -/
def Wording.expr (denoted : String → Column) (w : Wording) : Expr :=
  .compare w.operator (.column (denoted w.name)) (.literal w.value)

/-- The tests of a condition of a filter: one with its value, or for each tuple in turn one with the
value of each name. -/
def Condition.wordings (c : Condition) : List Wording :=
  match c.target, c.operand with
  | .single name, .scalar value => [⟨name, c.comparison.written value, value⟩]
  | .composite names, .tuples tuples =>
    tuples.flatMap fun values => (names.zip values).map fun (name, value) =>
      ⟨name, c.comparison.written value, value⟩
  | _, _ => []

namespace Request

/-- The tests of a request: those of its filter, and then one for the text in each name that is
searched. -/
def wordings (req : Request) : List Wording :=
  (req.filter.flatMap fun conditions => conditions.flatMap Condition.wordings)
    ++ match req.searchText? with
      | some text => req.searchable.map fun name => ⟨name, .like, .text (Pattern.containing text)⟩
      | none => []

variable {req : Request} {r : Resolver}

theorem map_wordings_condition (c : Condition) :
    c.wordings.map (Wording.expr r.resolve) = c.comparisons r := by
  obtain ⟨target, c, operand⟩ := c
  cases target with
  | single name => cases operand <;> rfl
  | composite names =>
    cases operand with
    | scalar value => rfl
    | tuples tuples =>
      simp only [Condition.wordings, Condition.comparisons, List.map_flatMap, List.map_map]
      rfl

theorem map_wordings :
    req.wordings.map (Wording.expr r.resolve) = req.comparisons r ++ req.patternTests r := by
  rw [wordings, List.map_append, comparisons, patternTests]
  congr 1
  · simp only [List.map_flatMap, map_wordings_condition]
  · cases req.searchText? with
    | none => rfl
    | some text => exact List.map_map

/-- The tests of a condition are those of its request, with what the names denote. -/
theorem leaves_of_condition? {result : Option Expr} (h : req.condition? r = .ok result) :
    (result.map Expr.leaves).getD [] = req.wordings.map (Wording.expr r.resolve) := by
  rw [map_wordings]
  cases result with
  | none =>
    obtain ⟨hfilter, hsearch⟩ := parts_of_condition?_none h
    rw [comparisons, (r.filter?_eq_none_iff hfilter).1 rfl, (of_searchPart?_eq_none hsearch).1]
    rfl
  | some e =>
    have hplain := Expr.plain_of_condition? h
    rcases parts_of_condition? h with
      ⟨hfilter, hnone⟩ | ⟨hnone, hsearch⟩ | ⟨f, s, hfilter, hsearch, rfl⟩
    · exact (laidOut_filter hfilter hnone hplain).leaves
    · exact (laidOut_search hnone hsearch hplain).leaves
    · exact (laidOut_both hfilter hsearch hplain).leaves

/-- The order has an entry for each key, in the order of the keys. -/
theorem entries_of_patch {st : Statement} {p : Patch} (h : req.patch st = .ok p) :
    p.order.getD [] = (req.order.map fun key => ⟨st.denoted key.name, key.direction⟩) ∧
      (p.order = none ↔ req.order = []) := by
  obtain ⟨-, horder, -, -⟩ := patch_eq_ok_iff.1 h
  rw [horder, orderEntries?, Resolver.resolve_ofStatement]
  cases req.order <;> simp

end Request

namespace Statement

/-- A name denotes the first selected column that declares it, or else the column of that name in the
first table. Columns without an alias, columns whose alias was declared before and all tables but the
first have no influence, and selecting more columns changes only what undeclared names denote. Whatever
request is accepted, its order has an entry for each key, and its condition a test for each name and
value, and the columns in them are what these names denote. -/
theorem denoted_everywhere (st : Statement) :
    (∀ name, (Resolver.ofStatement st).resolve name = st.denoted name) ∧
      (∀ before item after, st.items = before ++ item :: after →
        (item.aliasName = none ∨ ∃ earlier ∈ before, earlier.aliasName = item.aliasName) →
          ∀ name, (Resolver.ofStatement { st with items := before ++ after }).resolve name
            = (Resolver.ofStatement st).resolve name) ∧
      (∀ first others, st.tables = first :: others → ∀ others' name,
        (Resolver.ofStatement { st with tables := first :: others' }).resolve name
          = (Resolver.ofStatement st).resolve name) ∧
      (∀ more name, (Resolver.ofStatement { st with items := st.items ++ more }).resolve name
          ≠ (Resolver.ofStatement st).resolve name →
        ∀ item ∈ st.items, item.aliasName ≠ some name) ∧
      ∀ (req : Request) (st' : Statement), req.shape st = .ok st' →
        ∃ p, req.patch st = .ok p ∧ p.apply st = st' ∧
          p.order.getD [] = (req.order.map fun key => ⟨st.denoted key.name, key.direction⟩) ∧
          (p.order = none ↔ req.order = []) ∧
          (p.condition.map Expr.leaves).getD [] = req.wordings.map (Wording.expr st.denoted) := by
  simp only [Resolver.resolve_ofStatement, implies_true, true_and]
  refine ⟨?_, ?_, ?_, ?_⟩
  · intro before item after hitems hcovered name
    have hst : st = { st with items := before ++ item :: after } := by rw [← hitems]
    rw [denoted_without hcovered, ← hst]
  · intro first others htables others' name
    simp only [denoted, htables, List.head?_cons]
  · intro more name hchanged item hmem hname
    exact hchanged (denoted_append more ⟨item, hmem, hname⟩)
  · intro req st' hshape
    obtain ⟨p, hp, happly⟩ := Request.shape_eq_ok_iff.1 hshape
    obtain ⟨-, -, -, hcondition⟩ := Request.patch_eq_ok_iff.1 hp
    obtain ⟨hentries, hnone⟩ := Request.entries_of_patch hp
    refine ⟨p, hp, happly, hentries, hnone, ?_⟩
    rw [Request.leaves_of_condition? hcondition, Resolver.resolve_ofStatement]

/-- A statement with a column that has no alias, two that have the same, and two tables. -/
def repeatedAlias : Statement :=
  { empty with
    items := [⟨⟨some "t", "x"⟩, none⟩, ⟨⟨some "t", "a"⟩, some "x"⟩, ⟨⟨some "t", "b"⟩, some "x"⟩]
    tables := [.named "t" (some "u"), .named "w" none] }

/-- A request that names the alias and another name in its order, in a key and in a search. -/
def sortedSearch : Request :=
  { Request.empty with
    order := [⟨"x", .descending⟩, ⟨"y", .ascending⟩]
    filter := [[⟨.composite ["y", "x"], .equal, .tuples [[.null, .text "1"]]⟩]]
    searchable := ["x"]
    search := some "s" }

/-- Everywhere the alias denotes the first of its two columns, and the other name a column of the first
table; without the second of the two nothing changes. -/
theorem denoted_everywhere_repeatedAlias :
    (Resolver.ofStatement repeatedAlias).resolve "x" = ⟨some "t", "a"⟩ ∧
      (Resolver.ofStatement { repeatedAlias with items := repeatedAlias.items.take 2 }).resolve "x"
        = (Resolver.ofStatement repeatedAlias).resolve "x" ∧
      ∃ st' p, sortedSearch.shape repeatedAlias = .ok st' ∧
        sortedSearch.patch repeatedAlias = .ok p ∧ p.apply repeatedAlias = st' ∧
        p.order.getD [] = [⟨⟨some "t", "a"⟩, .descending⟩, ⟨⟨some "u", "y"⟩, .ascending⟩] ∧
        (p.condition.map Expr.leaves).getD [] =
          [.compare .is (.column ⟨some "u", "y"⟩) (.literal .null),
            .compare .equal (.column ⟨some "t", "a"⟩) (.literal (.text "1")),
            .compare .like (.column ⟨some "t", "a"⟩)
              (.literal (.text (Pattern.containing "s")))] := by
  obtain ⟨hresolve, hwithout, -, -, hwritten⟩ := denoted_everywhere repeatedAlias
  obtain ⟨p, hp, happly, hentries, -, htests⟩ := hwritten sortedSearch _ rfl
  refine ⟨(hresolve "x").trans rfl, ?_, _, p, rfl, hp, happly, hentries.trans rfl, htests.trans rfl⟩
  exact hwithout (repeatedAlias.items.take 2) ⟨⟨some "t", "b"⟩, some "x"⟩ [] rfl
    (.inr ⟨⟨⟨some "t", "a"⟩, some "x"⟩, .tail _ (.head _), rfl⟩) "x"

end Statement

end QueryShaping
