import QueryShaping.Proofs.Carried
import QueryShaping.Proofs.Faithful
import QueryShaping.Proofs.Returned

/-!
# The names of the mark

Writers mark a binary operator under one of three names. All three are read into one field, and a
field that has two values is no field of a binary operator. So a node is understood if it is marked
under one name at most and is not taken for a column before. Whatever its operands are, what is read
at its place is then the operator with its mark, if the nodes that lead there are understood as
well.

## What this module delivers

- `Expr.at?`, `Json.at?`: what stands at a place, to which operands lead.
- `Json.Operation`, `Json.Leads`: binary operators as writers put them, and the places that are
  reached through such nodes only.
- `Json.Understood`, `Json.UnderstoodTo`: the nodes that are read as binary operators, and the
  places to which only such nodes lead.
- `Expr.read_operation_iff`: at a place the operator with its mark is read, and written back under
  the first name, exactly if it is understood all the way.
- `Expr.read_markedTwice`: an operator that is marked under two names.
-/

set_option autoImplicit false

namespace QueryShaping

/-! ## Places -/

/-- One of the operands of a binary operator. -/
inductive Side where
  | left
  | right

namespace Side

/-- The operand on the side, of the two. -/
def of {α : Type} (x y : α) : Side → α
  | left => x
  | right => y

/-- The name of the operand on the side. -/
def name : Side → String
  | left => "left"
  | right => "right"

theorem map_of {α β : Type} (f : α → β) (x y : α) (side : Side) :
    side.of (f x) (f y) = f (side.of x y) := by
  cases side <;> rfl

end Side

/-- The condition at a place, to which operands of binary operators lead. -/
def Expr.at? : List Side → Expr → Option Expr
  | [], e => some e
  | side :: place, .binary _ left right _ => at? place (side.of left right)
  | _ :: _, _ => none

/-- The value at a place, to which members with the names of operands lead. -/
def Json.at? : List Side → Json → Option Json
  | [], v => some v
  | side :: place, v => (v.member? side.name).bind (at? place)

/-- What stands at a place is written at that place. -/
theorem Expr.at?_toJson {place : List Side} {e found : Expr} (h : e.at? place = some found) :
    e.toJson.at? place = some found.toJson := by
  induction place generalizing e with
  | nil =>
    obtain rfl : e = found := Option.some.inj h
    rfl
  | cons side place ih =>
    cases e with
    | binary op left right marked =>
      have hmember :
          (Expr.binary op left right marked).toJson.member? side.name =
            some (side.of left right).toJson := by
        cases side <;> rfl
      rw [Json.at?, hmember, Option.bind_some]
      exact ih h
    | column c => cases h
    | literal l => cases h
    | foreign v => cases h

/-! ## Operators as writers put them -/

namespace Json

/-- The names that the mark of a node goes by. -/
def markNames : List String := ["parenthesized", "paren", "parentheses"]

/-- The members of a node that mark it, by whichever name. -/
def marks : Json → List (String × Json)
  | .map members => members.filter fun m => markNames.contains m.1
  | _ => []

/-- An object is a binary operator with two operands, and its marks are truth values. It may have
other members, and no mark at all. -/
inductive Operation : Json → Operator → Json → Json → Prop where
  | intro (members : List (String × Json)) {op : Operator} {x y : Json} :
      (members.map (·.1)).Nodup → ("type", .text "binary_expr") ∈ members →
      ("operator", .text op.text) ∈ members → ("left", x) ∈ members → ("right", y) ∈ members →
      (∀ m ∈ (Json.map members).marks, ∃ b, m.2 = .bool b) → Operation (.map members) op x y

/-- A place is reached through binary operators only. -/
def Leads : List Side → Json → Json → Prop
  | [], v, w => v = w
  | side :: place, v, w => ∃ op x y, Operation v op x y ∧ Leads place (side.of x y) w

/-- A node is marked, under one name at least. -/
def Marked (v : Json) : Prop := ∃ m ∈ v.marks, m.2 = .bool true

/-- A node has one mark at most, and not the fields of a column. -/
def Understood (v : Json) : Prop := v.marks.length ≤ 1 ∧ ∀ c, ¬ Column.Fields v c

/-- The nodes that lead to a place, and the one at the place, are understood. -/
def UnderstoodTo : List Side → Json → Prop
  | [], v => Understood v
  | side :: place, v => Understood v ∧ ∀ x, v.member? side.name = some x → UnderstoodTo place x

theorem marks_map (members : List (String × Json)) :
    (Json.map members).marks = members.filter fun m => Expr.markField.goesBy m.1 := by
  refine List.filter_congr fun m _ => ?_
  rw [Bool.eq_iff_iff, Field.goesBy_iff, List.contains_iff_mem, markNames, List.mem_cons]
  rfl

namespace Operation

variable {v x y : Json} {op : Operator}

theorem member?_side (h : Operation v op x y) (side : Side) :
    v.member? side.name = some (side.of x y) := by
  obtain ⟨members, hnames, -, -, hleft, hright, -⟩ := h
  cases side with
  | left => exact (Json.lookup_eq_some_iff_mem hnames).2 hleft
  | right => exact (Json.lookup_eq_some_iff_mem hnames).2 hright

/-- A binary operator fits its outline exactly if it has one mark at most. -/
theorem fits_iff (h : Operation v op x y) : Expr.binaryOutline.Fits v ↔ v.marks.length ≤ 1 := by
  obtain ⟨members, hnames, -, -, -, -, -⟩ := h
  rw [marks_map]
  constructor
  · intro hfits
    exact hfits Expr.markField (by simp [Expr.binaryOutline, Outline.record])
  · intro hmarks f hf
    simp only [Expr.binaryOutline, Outline.record, List.mem_cons, List.not_mem_nil, or_false] at hf
    -- only the mark goes by several names
    have hnamed {place : Nat} {name : String} :
        (members.filter fun m => (Field.named place name).goesBy m.1).length ≤ 1 := by
      have hfits : (Outline.record name [Field.named place name]).Fits (.map members) :=
        Outline.fits_map_of_nodup (by simp [Outline.record, Field.named]) hnames
      exact hfits _ List.mem_cons_self
    rcases hf with rfl | rfl | rfl | rfl
    · exact hnamed
    · exact hnamed
    · exact hnamed
    · exact hmarks

/-- The type of a binary operator is not that of a literal. -/
theorem not_literal (h : Operation v op x y) (l : Literal) : ¬ Literal.Fields v l := by
  obtain ⟨members, hnames, htype, -, -, -, -⟩ := h
  rintro ⟨hfits, ⟨z, hz, hchooses⟩, -⟩
  have hz := (hfits.named_of?_eq_some_iff List.mem_cons_self).1 hz
  obtain rfl := (Prod.mk.inj (List.inj_on_of_nodup_map hnames hz htype rfl)).2
  cases l <;> simp [Json.Chooses, Literal.kind, Literal.Kind.name] at hchooses

/-- The mark of a binary operator that fits is set if one of its members is true. -/
theorem exists_mark (h : Operation v op x y) (hfits : Expr.binaryOutline.Fits v) :
    ∃ marked, (marked = true ↔ v.Marked) ∧
      (Expr.markField.of? v).getD (.bool false) = .bool marked := by
  obtain ⟨members, -, -, -, -, -, hbool⟩ := h
  have hmem {m : String × Json} (hm : m ∈ (Json.map members).marks) :
      Expr.markField.of? (.map members) = some m.2 := by
    rw [marks_map, List.mem_filter] at hm
    exact (hfits.of?_eq_some_iff (by simp [Expr.binaryOutline, Outline.record])).2 ⟨m.1, hm.2, hm.1⟩
  by_cases hmarks : (Json.map members).marks = []
  · refine ⟨false, by simp [Marked, hmarks], ?_⟩
    rw [Field.of?_map, List.find?_eq_none.2, Option.map_none, Option.getD_none]
    intro m hm hgoes
    rw [marks_map] at hmarks
    exact List.eq_nil_iff_forall_not_mem.1 hmarks m (List.mem_filter.2 ⟨hm, hgoes⟩)
  · -- all marks are in the one field, so they have the same value
    obtain ⟨m, hm⟩ := List.exists_mem_of_ne_nil _ hmarks
    obtain ⟨b, hb⟩ := hbool m hm
    refine ⟨b, ⟨?_, ?_⟩, by rw [hmem hm, Option.getD_some, hb]⟩
    · rintro rfl
      exact ⟨m, hm, hb⟩
    · rintro ⟨n, hn, htrue⟩
      have hsame := Option.some.inj ((hmem hm).symm.trans (hmem hn))
      exact Json.bool.inj (hb.symm.trans (hsame.trans htrue))

/-- The fields of a binary operator that fits are those that writers put there. -/
theorem binaryFields (h : Operation v op x y) (hmarks : v.marks.length ≤ 1) :
    ∃ marked, (marked = true ↔ v.Marked) ∧ Expr.BinaryFields v op x y marked := by
  have hfits := h.fits_iff.2 hmarks
  obtain ⟨marked, hmarked, hmark⟩ := h.exists_mark hfits
  obtain ⟨members, -, -, hop, hleft, hright, -⟩ := h
  have hfields : Expr.binaryOutline.fields =
    [Expr.operatorField, Expr.leftField, Expr.rightField, Expr.markField] := rfl
  refine ⟨marked, hmarked, hfits, ⟨_, ?_, .inl rfl⟩, ?_, ?_, hmark⟩
  · exact (hfits.named_of?_eq_some_iff (hfields ▸ List.mem_cons_self)).2 hop
  · exact (hfits.named_of?_eq_some_iff (hfields ▸ by simp [Expr.leftField])).2 hleft
  · exact (hfits.named_of?_eq_some_iff (hfields ▸ by simp [Expr.rightField])).2 hright

/-- A binary operator that is understood is read as one, with the conditions that its operands are
read as on their own. -/
theorem ofJson_eq (h : Operation v op x y) (hv : v.Understood) :
    ∃ marked, (marked = true ↔ v.Marked) ∧
      Expr.ofJson v = .binary op (Expr.ofJson x) (Expr.ofJson y) marked := by
  obtain ⟨marked, hmarked, hfields⟩ := h.binaryFields hv.1
  exact ⟨marked, hmarked, Expr.reads_iff.1
    (.binary hv.2 h.not_literal hfields (Expr.reads_ofJson x) (Expr.reads_ofJson y))⟩

theorem ofJson_ne_binary (h : Operation v op x y) (hv : ¬ v.Understood) (op' : Operator)
    (left right : Expr) (marked : Bool) : Expr.ofJson v ≠ .binary op' left right marked := by
  intro heq
  cases heq ▸ Expr.reads_ofJson v with
  | binary hcolumn _ hfields => exact hv ⟨h.fits_iff.1 hfields.1, hcolumn⟩

end Operation

/-! ## Places that are understood -/

/-- What is read at a place that is understood is what the value there is read as on its own. -/
theorem Leads.at?_eq_some {place : List Side} {v w x y : Json} {op : Operator}
    (hplace : Leads place v w) (hw : Operation w op x y) (hv : UnderstoodTo place v) :
    (Expr.ofJson v).at? place = some (Expr.ofJson w) ∧ w.Understood := by
  induction place generalizing v with
  | nil =>
    obtain rfl : v = w := hplace
    exact ⟨rfl, hv⟩
  | cons side place ih =>
    obtain ⟨op', x', y', hnode, hrest⟩ := hplace
    obtain ⟨hself, hbelow⟩ := hv
    obtain ⟨marked, -, hread⟩ := hnode.ofJson_eq hself
    rw [hread, Expr.at?, Side.map_of]
    exact ih hrest (hbelow _ (hnode.member?_side side))

/-- At a place that is not understood no operator is read. -/
theorem Leads.at?_ne_binary {place : List Side} {v w x y : Json} {op : Operator}
    (hplace : Leads place v w) (hw : Operation w op x y) (hv : ¬ UnderstoodTo place v)
    (op' : Operator) (left right : Expr) (marked : Bool) :
    (Expr.ofJson v).at? place ≠ some (.binary op' left right marked) := by
  induction place generalizing v with
  | nil =>
    obtain rfl : v = w := hplace
    exact fun heq => hw.ofJson_ne_binary hv _ _ _ _ (Option.some.inj heq)
  | cons side place ih =>
    obtain ⟨op', x', y', hnode, hrest⟩ := hplace
    by_cases hself : v.Understood
    · obtain ⟨marked, -, hread⟩ := hnode.ofJson_eq hself
      rw [hread, Expr.at?, Side.map_of]
      refine ih hrest fun hbelow => hv ⟨hself, fun z hz => ?_⟩
      obtain rfl := Option.some.inj ((hnode.member?_side side).symm.trans hz)
      exact hbelow
    · -- no operands are read here, so nothing is read below
      cases hread : Expr.ofJson v with
      | binary => exact absurd hread (hnode.ofJson_ne_binary hself _ _ _ _)
      | column c => exact nofun
      | literal l => exact nofun
      | foreign v => exact nofun

theorem Leads.ne_null {place : List Side} {v w x y : Json} {op : Operator}
    (hplace : Leads place v w) (hw : Operation w op x y) : v ≠ .null := by
  cases place with
  | nil =>
    obtain rfl : v = w := hplace
    rintro rfl
    cases hw
  | cons side place =>
    obtain ⟨_, _, _, hnode, -⟩ := hplace
    rintro rfl
    cases hnode

end Json

/-! ## Documents -/

namespace Document

/-- The condition that an accepted document brings is written as the condition of the shaped
statement, or as the left operand of it. -/
theorem exists_where_of_shapeText {pretty : Bool} {s out : String} {v : Json}
    (h : shapeText pretty s = .ok out) (hcond : conditionOf? s = some v.toSource)
    (hnull : v ≠ .null) :
    ∃ (st : Statement) (whole : Expr) (front : List Side), out = text pretty st ∧
      st.toJson.member? "where" = some whole.toJson ∧ (front = [] ∨ front = [.left]) ∧
      ∀ place, whole.at? (front ++ place) = (Expr.ofJson v).at? place := by
  obtain ⟨d, p, hd, -, rfl⟩ := shapeText_eq_ok_iff.1 h
  have hsource : v.toSource ≠ .atom .null := by
    cases v with
    | null => exact absurd rfl hnull
    | _ => exact nofun
  obtain ⟨v', hv', hst⟩ := exists_condition hd hcond hsource
  have hread : d.statement.condition = some (Expr.ofJson v) := hst
  have hwhere {e : Expr} (he : (p.apply d.statement).condition = some e) :
      (p.apply d.statement).toJson.member? "where" = some e.toJson := by
    rw [Statement.member?_where_toJson, he]
    rfl
  cases hnew : p.condition with
  | none =>
    have he : (p.apply d.statement).condition = some (Expr.ofJson v) := by
      rw [Patch.apply, hnew, hread]
      rfl
    exact ⟨_, _, [], rfl, hwhere he, .inl rfl, fun _ => rfl⟩
  | some new =>
    have he : (p.apply d.statement).condition = some ((Expr.ofJson v).and new) := by
      rw [Patch.apply, hnew, hread]
      rfl
    exact ⟨_, _, [.left], rfl, hwhere he, .inr rfl, fun _ => rfl⟩

end Document

namespace Expr

/-- Of a binary operator at a place to which binary operators lead, the operator, its operands as
they are read on their own and its mark are read at that place exactly if the place is understood:
no node on the way, and not the one at the place, has two marks or the fields of a column. The mark
is set exactly if one of the names it goes by is true. In the text of a shaped statement it stands
at the same place of the condition, or of its left operand, and then under its first name or not at
all. -/
theorem read_operation_iff {place : List Side} {v w x y : Json} {op : Operator} {way : Reading}
    (hplace : Json.Leads place v w) (hw : Json.Operation w op x y) (hroom : way.HasRoom v) :
    ∃ e left right marked,
      Expr.read way v.toSource = .ok e ∧
      (∀ inner : Reading, inner.HasRoom x → Expr.read inner x.toSource = .ok left) ∧
      (∀ inner : Reading, inner.HasRoom y → Expr.read inner y.toSource = .ok right) ∧
      (marked = true ↔ w.Marked) ∧
      (e.at? place = some (.binary op left right marked) ↔ Json.UnderstoodTo place v) ∧
      ∀ pretty s out, Document.shapeText pretty s = .ok out →
        Document.conditionOf? s = some v.toSource → Json.UnderstoodTo place v →
        ∃ (st : Statement) (written : Json) (front : List Side), out = Document.text pretty st ∧
          st.toJson.member? "where" = some written ∧ (front = [] ∨ front = [.left]) ∧
          written.at? (front ++ place) = some (.map
            ([("type", .text "binary_expr"), ("operator", .text op.text), ("left", left.toJson),
              ("right", right.toJson)] ++ markMember marked)) := by
  have hread {inner : Reading} {z : Json} (hz : inner.HasRoom z) :
      Expr.read inner z.toSource = .ok (ofJson z) :=
    Expr.read_toSource_iff.2 ⟨hz, reads_ofJson z⟩
  by_cases hv : Json.UnderstoodTo place v
  · obtain ⟨hat, hself⟩ := hplace.at?_eq_some hw hv
    obtain ⟨marked, hmarked, hnode⟩ := hw.ofJson_eq hself
    rw [hnode] at hat
    refine ⟨ofJson v, ofJson x, ofJson y, marked, hread hroom, fun _ => hread, fun _ => hread,
      hmarked, iff_of_true hat hv, fun pretty s out hout hcond _ => ?_⟩
    obtain ⟨st, whole, front, hst, hwhere, hfront, hsame⟩ :=
      Document.exists_where_of_shapeText hout hcond (hplace.ne_null hw)
    exact ⟨st, whole.toJson, front, hst, hwhere, hfront, at?_toJson ((hsame place).trans hat)⟩
  · obtain ⟨marked, hmarked⟩ : ∃ marked : Bool, marked = true ↔ w.Marked := by
      by_cases hmarked : w.Marked
      · exact ⟨true, iff_of_true rfl hmarked⟩
      · exact ⟨false, iff_of_false nofun hmarked⟩
    exact ⟨ofJson v, ofJson x, ofJson y, marked, hread hroom, fun _ => hread, fun _ => hread,
      hmarked, iff_of_false (hplace.at?_ne_binary hw hv _ _ _ _) hv,
      fun _ _ _ _ _ h => absurd h hv⟩

/-- A column. -/
def columnOf (name : String) : Json :=
  .map [("type", .text "column_ref"), ("table", .null), ("column", .text name)]

/-- A disjunction of two columns, with marks. -/
def eitherOf (marks : List (String × Json)) : Json :=
  .map ([("type", .text "binary_expr"), ("operator", .text "OR"), ("left", columnOf "a"),
    ("right", columnOf "b")] ++ marks)

/-- A conjunction that is marked as false, with a disjunction that is marked as true. -/
def markedBelow : Json :=
  .map [("type", .text "binary_expr"), ("operator", .text "AND"),
    ("left", eitherOf [("paren", .bool true)]), ("right", columnOf "c"),
    ("parentheses", .bool false)]

/-- A document that brings the condition `markedBelow`. -/
def markedBelowDocument : Json :=
  .map [("queryAST", .map [("type", .text "select"), ("where", markedBelow)])]

/-- The disjunction is read with its mark, and written back with it. -/
theorem read_operation_iff_markedBelow :
    (∃ e, Expr.read .whole markedBelow.toSource = .ok e ∧
      e.at? [.left] = some (.binary .or (.column ⟨none, "a"⟩) (.column ⟨none, "b"⟩) true)) ∧
    ∃ (st : Statement) (written : Json) (front : List Side),
      Document.shapeText false markedBelowDocument.compact = .ok (Document.text false st) ∧
      st.toJson.member? "where" = some written ∧
      written.at? (front ++ [.left]) = some (eitherOf [("parenthesized", .bool true)]) := by
  have hbelow :
      Json.Operation (eitherOf [("paren", .bool true)]) .or (columnOf "a") (columnOf "b") :=
    .intro _ (by decide) (by simp) (by simp [Operator.text]) (by simp) (by simp)
      (by simp [Json.marks, Json.markNames])
  have habove : Json.Operation markedBelow .and (eitherOf [("paren", .bool true)]) (columnOf "c") :=
    .intro _ (by decide) (by simp) (by simp [Operator.text]) (by simp) (by simp)
      (by simp [Json.marks, Json.markNames])
  have hplace : Json.Leads [.left] markedBelow (eitherOf [("paren", .bool true)]) :=
    ⟨_, _, _, habove, rfl⟩
  have hroom : Reading.whole.HasRoom markedBelow := by
    show markedBelow.depth ≤ 127
    decide
  have hcolumn {members : List (String × Json)} (h : "column" ∉ members.map (·.1)) (c : Column) :
      ¬ Column.Fields (.map members) c :=
    Column.not_fields_of_none (Field.of?_named_eq_none_iff.2 h) c
  have hall : Json.UnderstoodTo [.left] markedBelow := by
    refine ⟨⟨by decide, hcolumn (by decide)⟩, fun x hx => ?_⟩
    obtain rfl : eitherOf [("paren", .bool true)] = x := Option.some.inj hx
    exact ⟨by decide, hcolumn (by decide)⟩
  have hsource := @Source.ofChars_compact markedBelowDocument (by decide)
  let d : Document := ⟨.empty, { Statement.empty with condition := some (ofJson markedBelow) }⟩
  have hd : Document.ofText markedBelowDocument.compact = .ok d :=
    Document.ofText_of_ofChars hsource rfl
  have hout : Document.shapeText false markedBelowDocument.compact =
      .ok (Document.text false d.statement) :=
    Document.shapeText_eq_ok_iff.2 ⟨d, ⟨none, none, none⟩, hd, rfl, rfl⟩
  have hcond :
      Document.conditionOf? markedBelowDocument.compact = some markedBelow.toSource := by
    rw [Document.conditionOf?, hsource]
    rfl
  obtain ⟨e, left, right, marked, he, hleft, hright, hmarked, hat, htext⟩ :=
    read_operation_iff hplace hbelow hroom
  obtain rfl : Expr.column ⟨none, "a"⟩ = left := Except.ok.inj (hleft .stored trivial)
  obtain rfl : Expr.column ⟨none, "b"⟩ = right := Except.ok.inj (hright .stored trivial)
  obtain rfl : marked = true := hmarked.2 ⟨("paren", .bool true), by
    simp [eitherOf, Json.marks, Json.markNames], rfl⟩
  obtain ⟨st, written, front, hst, hwhere, -, hwritten⟩ := htext _ _ _ hout hcond hall
  exact ⟨⟨e, he, hat.2 hall⟩, st, written, front, hst ▸ hout, hwhere, hwritten⟩

/-- A disjunction that is marked under two names. -/
def markedTwice : Json := eitherOf [("paren", .bool true), ("parentheses", .bool true)]

/-- It is not read as a disjunction, with its mark or without, but kept as it is. -/
theorem read_markedTwice :
    Json.Operation markedTwice .or (columnOf "a") (columnOf "b") ∧ markedTwice.Marked ∧
      Expr.read .whole markedTwice.toSource = .ok (.foreign markedTwice.normal) := by
  refine ⟨.intro _ (by decide) (by simp) (by simp [Operator.text]) (by simp) (by simp)
    (by simp [Json.marks, Json.markNames]), ?_, rfl⟩
  exact ⟨("paren", .bool true), by simp [markedTwice, eitherOf, Json.marks, Json.markNames], rfl⟩

end Expr

end QueryShaping
