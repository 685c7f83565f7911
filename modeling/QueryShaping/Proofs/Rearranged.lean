import QueryShaping.Proofs.Neutral
import QueryShaping.Proofs.Rendered

/-!
# Documents whose members stand in another order

Nothing that a document says depends on the order in which its maps list their members: neither the
statement, which is read straight from the text, nor the request, which is read from what was stored,
nor what both carry along. One exchange of members is followed through each reader, and any number of
them through the whole document.

## What this module delivers

- `Statement.neutral_read`, `Request.read_map_near`: the parts of a document after one exchange.
- `Document.read_rearranged`: documents with rearranged trees are read as the same.
- `Document.Rearranged`: texts of documents that differ in the order of members only, and
  `Document.rearranged_of_reordered`: the texts of two values that do so.
- `Document.shapeText_rearranged`: such texts are shaped alike.
-/

set_option autoImplicit false

namespace QueryShaping

open Source

/-! ## Columns, literals and conditions -/

theorem Column.neutral_read : Source.Neutral Column.read := by
  have htable := Record.neutral_optional (f := tableField) (o := outline)
    (by simp [outline, Outline.record]) neutral_readText
  have hname := Record.neutral_required (f := nameField) (o := outline)
    (by simp [outline, Outline.record]) neutral_readText
  exact Record.neutral_read outline_separate ((htable.map Column.mk).seq hname)

theorem Literal.neutral_read : Source.Neutral Literal.read := by
  have hkind := Record.neutral_required (f := kindField) (o := outline)
    (by simp [outline, Outline.record]) (neutral_readChoice Kind.choices false)
  have hvalue := Record.neutral_withDefault (f := valueField) (o := outline)
    (by simp [outline, Outline.record]) .null neutral_readAny
  exact (Record.neutral_read outline_separate ((hkind.map Prod.mk).seq hvalue)).bind _

/-- Conditions are taken from values that were read to their end. -/
theorem Expr.neutral_read : Source.Neutral Expr.read :=
  neutral_of_steady steady_read fun _ _ _ h => (readWhole_of_read h).1

/-! ## Statements -/

theorem Direction.neutral_read : Source.Neutral Direction.read := neutral_readChoice _ false

theorem OrderEntry.neutral_read : Source.Neutral OrderEntry.read := by
  have hcolumn := Record.neutral_required (f := columnField) (o := outline)
    (by simp [outline, Outline.record]) Column.neutral_read
  have hdirection := Record.neutral_required (f := directionField) (o := outline)
    (by simp [outline, Outline.record]) Direction.neutral_read
  exact Record.neutral_read outline_separate ((hcolumn.map OrderEntry.mk).seq hdirection)

theorem SelectItem.neutral_read : Source.Neutral SelectItem.read := by
  have hcolumn := Record.neutral_required (f := columnField) (o := outline)
    (by simp [outline, Outline.record]) Column.neutral_read
  have halias := Record.neutral_withDefault (f := aliasField) (o := outline)
    (by simp [outline, Outline.record]) none (neutral_readOptional neutral_readText)
  exact Record.neutral_read outline_separate ((hcolumn.map SelectItem.mk).seq halias)

theorem Window.neutral_read : Source.Neutral Window.read := by
  have hoffset := Record.neutral_required (f := offsetField) (o := outline)
    (by simp [outline]) Literal.neutral_read
  have hcount := Record.neutral_required (f := countField) (o := outline)
    (by simp [outline]) Literal.neutral_read
  exact (Record.neutral_readTuple outline_separate ((hoffset.map Prod.mk).seq hcount)).bind _

theorem Table.neutral_read : Source.Neutral Table.read := by
  have htext {f : Field} (hf : f ∈ outline.fields) := Record.neutral_optional hf neutral_readText
  refine Record.neutral_readMap outline_separate fun extra => ?_
  have hdatabase := htext (f := databaseField) (by simp [outline, Outline.record])
  have hname := htext (f := nameField) (by simp [outline, Outline.record])
  have halias := htext (f := aliasField) (by simp [outline, Outline.record])
  exact ((hdatabase.map _).seq hname).seq halias

theorem Statement.neutral_read : Source.Neutral Statement.read := by
  refine Record.neutral_readMap outline_separate fun extra => ?_
  have hmem {f : Field} (hf : f ∈ [kindField, distinctField, itemsField, tablesField, conditionField,
    groupsField, orderField, windowField]) : f ∈ outline.fields := hf
  have hkind := Record.neutral_required (hmem (f := kindField) (by simp))
    (neutral_readChoice [("select", ())] false)
  have hdistinct := Record.neutral_withDefault (hmem (f := distinctField) (by simp)) .null
    neutral_readAny
  have hitems := Record.neutral_withDefault (hmem (f := itemsField) (by simp)) []
    (neutral_readListOrNull SelectItem.neutral_read)
  have htables := Record.neutral_withDefault (hmem (f := tablesField) (by simp)) []
    (neutral_readListOrNull Table.neutral_read)
  have hcondition := Record.neutral_optional (hmem (f := conditionField) (by simp)) Expr.neutral_read
  have hgroups := Record.neutral_optional (hmem (f := groupsField) (by simp))
    (neutral_readList Expr.neutral_read)
  have horder := Record.neutral_optional (hmem (f := orderField) (by simp))
    (neutral_readList OrderEntry.neutral_read)
  have hwindow := Record.neutral_optional (hmem (f := windowField) (by simp)) Window.neutral_read
  exact (((((((hkind.map _).seq hdistinct).seq hitems).seq htables).seq hcondition).seq hgroups).seq
    horder).seq hwindow

/-! ## Requests -/

namespace SortKey

theorem outline_separate : outline.Separate := by decide

theorem neutral_read : Source.Neutral SortKey.read := by
  have hname := Record.neutral_required (f := nameField) (o := outline)
    (by simp [outline, Outline.record]) neutral_readText
  -- the letter case of a direction is looked at after its text has been read
  have hread : Source.Neutral fun _ => readDirection := neutral_readText.bind _
  have hdirection := Record.neutral_required (f := directionField) (o := outline)
    (by simp [outline, Outline.record]) hread
  exact Record.neutral_read outline_separate ((hname.map SortKey.mk).seq hdirection)

end SortKey

theorem Attribute.neutral_read : Source.Neutral Attribute.read := neutral_readAny.bind _

theorem Operand.neutral_read : Source.Neutral Operand.read := neutral_readAny.bind _

theorem Positive.neutral_read : Source.Neutral fun _ => Positive.read := by
  apply neutral_of_eq
  intro src src' hnear _ p hp
  match src with
  | .atom _ => exact near_atom hnear
  | .list _ _ => cases hp
  | .map _ _ => cases hp
  | .absent _ => cases hp

namespace Condition

theorem outline_separate : outline.Separate := by decide

theorem neutral_read : Source.Neutral Condition.read := by
  have htarget := Record.neutral_required (f := targetField) (o := outline)
    (by simp [outline, Outline.record]) Attribute.neutral_read
  have hcomparison := Record.neutral_required (f := comparisonField) (o := outline)
    (by simp [outline, Outline.record]) (neutral_readChoice Comparison.choices true)
  have hoperand := Record.neutral_required (f := operandField) (o := outline)
    (by simp [outline, Outline.record]) Operand.neutral_read
  exact Record.neutral_read outline_separate
    (((htarget.map Condition.mk).seq hcomparison).seq hoperand)

end Condition

namespace Request

theorem outline_separate : outline.Separate := by decide

/-- The request of a document is read as the same after an exchange in the document, if its own
fields are well written. -/
theorem read_map_near {ms ns : List (Quoted × Source)} {fin : MapEnd} {req : Request}
    (h : Matched Source.Near ms ns) (hready : (Record.byName ms).Ready outline .stored)
    (hreq : read .stored (.map ms fin) = .ok req) : read .stored (.map ns fin) = .ok req := by
  refine Record.read_map_near outline_separate ?_ h rfl hready hreq
  have hmem {f : Field} (hf : f ∈ [orderField, limitField, pageField, filterField, searchableField,
    searchField, limitPerField]) : f ∈ outline.fields := hf
  have hpositive := neutral_readOptional Positive.neutral_read
  have horder := Record.neutral_withDefault (hmem (f := orderField) (by simp)) []
    (neutral_readListOrNull SortKey.neutral_read)
  have hlimit := Record.neutral_withDefault (hmem (f := limitField) (by simp)) none hpositive
  have hpage := Record.neutral_withDefault (hmem (f := pageField) (by simp)) none hpositive
  have hfilter := Record.neutral_withDefault (hmem (f := filterField) (by simp)) []
    (neutral_readListOrNull (neutral_readList Condition.neutral_read))
  have hsearchable := Record.neutral_withDefault (hmem (f := searchableField) (by simp)) []
    (neutral_readListOrNull neutral_readText)
  have hsearch := Record.neutral_withDefault (hmem (f := searchField) (by simp)) none
    (neutral_readOptional neutral_readText)
  have hlimitPer := Record.neutral_withDefault (hmem (f := limitPerField) (by simp)) none
    (neutral_readOptional neutral_readAny)
  exact ((((((horder.map _).seq hlimit).seq hpage).seq hfilter).seq hsearchable).seq hsearch).seq
    hlimitPer

end Request

/-! ## Documents -/

namespace Document

theorem outline_separate : outline.Separate := by decide

/-- No field of the request goes by the name of the statement. -/
theorem find?_eq_none {f : Field} (hf : f ∈ Request.outline.fields) {q : Quoted}
    (hq : f.matchesName q = true) : outline.find? q = none := by
  cases q with
  | text name =>
    have hother : ∀ f ∈ Request.outline.fields, f.goesBy "queryAST" = false := by decide
    refine List.find?_eq_none.2 fun g hg hgname => ?_
    obtain rfl := List.mem_singleton.1 hg
    obtain rfl := Field.named_goesBy_iff.1 hgname
    have hname : f.goesBy "queryAST" = true := hq
    rw [hother f hf] at hname
    cases hname
  | _ => cases hq

section Read

variable {src src' : Source} {d : Document}

/-- A document is read as the same after an exchange. -/
theorem read_near (h : Source.Near src src') (hdistinct : src.Distinct)
    (hd : read .whole src = .ok d) : read .whole src' = .ok d := by
  obtain ⟨st, hst, hrest⟩ := bind_eq_ok_iff.1 hd
  obtain ⟨req, hreq, hsame⟩ := bind_eq_ok_iff.1 hrest
  have hready : src.Ready .whole := ⟨hdistinct, nofun⟩
  have hst' := Record.neutral_readMap outline_separate
    (fun _ => Record.neutral_required (by simp [outline, Outline.record]) Statement.neutral_read)
    h hready st hst
  obtain ⟨ms, fin, inner, rfl, henter, hframe, -⟩ := Record.parts_of_readMap hst
  obtain ⟨ns, rfl, hmatched⟩ := near_map h
  -- all that is not the statement was read to its end
  have hfields : (Record.byName ms).Ready Request.outline .stored := by
    intro f hf place x hfind
    obtain ⟨q, hq, hname⟩ := Record.exists_mem_of_find? hfind
    obtain ⟨-, -, -, hothers⟩ := (Record.readMembers_eq_ok_iff outline_separate).1 hframe
    obtain rfl := Except.ok.inj henter
    exact ⟨(distinct_map_iff.1 hdistinct).2 (q, x) hq,
      fun _ => ⟨_, hothers (q, x) hq (find?_eq_none hf hname)⟩⟩
  have hreq' := Request.read_map_near hmatched hfields hreq
  exact bind_eq_ok_iff.2 ⟨st, hst', bind_eq_ok_iff.2 ⟨req, hreq', hsame⟩⟩

/-- It is read as the same after any number of exchanges. -/
theorem read_rearranged (h : Source.Rearranged src src') (hdistinct : src.Distinct)
    (hd : read .whole src = .ok d) : read .whole src' = .ok d := by
  induction h with
  | refl => exact hd
  | tail hbefore hswap ih =>
    exact read_near (.single hswap) (Source.Rearranged.distinct hbefore hdistinct) ih

end Read

/-- Two texts of documents differ in nothing but the order in which their maps list the members, which
have different names, and in how names and blanks are written. -/
structure Rearranged (s s' : String) : Prop where
  tree : Source.Rearranged (Source.ofChars s.toList).1 (Source.ofChars s'.toList).1
  surplus : (Source.ofChars s.toList).2 = (Source.ofChars s'.toList).2
  distinct : (Source.ofChars s.toList).1.Distinct

namespace Rearranged

variable {s s' : String} {d : Document}

theorem ofText (h : Rearranged s s') (hd : Document.ofText s = .ok d) :
    Document.ofText s' = .ok d := by
  rw [ofText_eq_ok_iff] at hd ⊢
  exact ⟨h.surplus ▸ hd.1, read_rearranged h.tree h.distinct hd.2⟩

theorem symm (h : Rearranged s s') : Rearranged s' s :=
  ⟨h.tree.symm, h.surplus.symm, h.tree.distinct h.distinct⟩

end Rearranged

/-- Texts of values that differ in the order of members only, on one line or over several. -/
theorem rearranged_of_reordered {v w : Json} (h : v.Reordered w) (hback : v.ReadsBack)
    (hback' : w.ReadsBack) : Rearranged v.compact w.pretty := by
  have hv := Source.ofChars_compact hback
  have hw := Source.ofChars_pretty hback'
  refine ⟨?_, ?_, ?_⟩
  · rw [hv, hw]
    exact h.rearranged
  · rw [hv, hw]
  · rw [hv]
    exact (distinct_toSource_iff v).2 h.left

/-- Documents that differ in the order of members only are shaped alike: neither of them can be read,
or both give the same text, or both are rejected for the same cause. -/
theorem shapeText_rearranged {s s' : String} (h : Rearranged s s') (pretty : Bool) :
    (∃ e e', shapeText pretty s = .error (.unreadable e) ∧
        shapeText pretty s' = .error (.unreadable e')) ∨
      (∃ out, shapeText pretty s = .ok out ∧ shapeText pretty s' = .ok out) ∨
        ∃ cause, shapeText pretty s = .error (.rejected cause) ∧
          shapeText pretty s' = .error (.rejected cause) := by
  cases hd : ofText s with
  | ok d =>
    rw [shapeText_eq pretty hd, shapeText_eq pretty (h.ofText hd), shape]
    cases d.request.shape d.statement with
    | ok st => exact .inr (.inl ⟨_, rfl, rfl⟩)
    | error cause => exact .inr (.inr ⟨cause, rfl, rfl⟩)
  | error failure =>
    obtain ⟨e, rfl⟩ := exists_unreadable hd
    cases hd' : ofText s' with
    | ok d =>
      -- what can be read after the exchanges could be read before them
      cases hd.symm.trans (h.symm.ofText hd')
    | error failure' =>
      obtain ⟨e', rfl⟩ := exists_unreadable hd'
      refine .inl ⟨e, e', ?_, ?_⟩
      · rw [shapeText, hd]
        rfl
      · rw [shapeText, hd']
        rfl

/-- A document with its members out of order at several depths: beside the statement, in a condition of
the request, in a table with a hint, and in a node of the statement's condition. -/
def shuffled : Json :=
  .map [
    ("queryAST", .map [
      ("where", .map [
        ("right", .map [("value", .number (.int (.ofUInt64 1))), ("type", .text "number")]),
        ("operator", .text "="),
        ("left", .map [("table", .text "t"), ("column", .text "a")])]),
      ("type", .text "select"),
      ("from", .list [.map [("table", .text "t"),
        ("hint", .map [("y", .bool true), ("x", .null)])]])]),
    ("limit", .number (.int (.ofUInt64 5))),
    ("filter", .list [.list [.map [("value", .text "z"), ("operator", .text "equal"),
      ("attribute", .text "b")]]])]

/-- Sorted at every depth and written over several lines, it is shaped as it is on one line. -/
theorem shapeText_rearranged_shuffled :
    ∃ out, shapeText false shuffled.compact = .ok out ∧
      shapeText false shuffled.normal.pretty = .ok out := by
  have hdistinct : shuffled.Distinct := by
    simp [shuffled, Json.Distinct, Json.DistinctMembers, Json.DistinctItems]
  have hreordered :=
    rearranged_of_reordered hdistinct.reordered_normal (by decide) (by decide +kernel)
  obtain ⟨d, hread, st, hst⟩ :
      ∃ d, read .whole shuffled.toSource = .ok d ∧ ∃ st, d.shape = .ok st := ⟨_, rfl, _, rfl⟩
  have hd : ofText shuffled.compact = .ok d :=
    ofText_of_ofChars (Source.ofChars_compact (by decide)) hread
  have hshaped : shapeText false shuffled.compact = .ok (text false st) := by
    rw [shapeText_eq false hd, hst]
    rfl
  rcases shapeText_rearranged hreordered false with ⟨e, e', h, -⟩ | hboth | ⟨cause, h, -⟩
  · cases hshaped.symm.trans h
  · exact hboth
  · cases hshaped.symm.trans h

end Document

end QueryShaping
