import QueryShaping.Expr.Read
import QueryShaping.Proofs.Records

/-!
# Nodes of conditions

A node is taken for a column, a literal or a binary operator as soon as it has the fields of one, in
this order. The member `type`, by which writers tell the kinds apart, is no field of columns and
binary operators, and lists have no members at all. So there are nodes of other kinds that are
misread.

## What this module delivers

- `Column.Fields`, `Literal.Fields`, `Expr.BinaryFields`: what it is to have the fields of a column,
  a literal or a binary operator.
- `Expr.Reads`, `Expr.reads_iff`: what a value is read as, by its fields and those of its operands.
- `Expr.read_keepsKind_iff`: which nodes are read as what they say they are.
-/

set_option autoImplicit false

namespace QueryShaping

/-! ## Values inside a value -/

namespace Json

/-- The items of a list, or the values of the members of a map. -/
def parts : Json → List Json
  | .list items => items
  | .map members => members.map (·.2)
  | _ => []

/-- Induction over values, with the hypothesis for every value inside. -/
theorem induction_parts {motive : Json → Prop}
    (step : ∀ v, (∀ x ∈ v.parts, motive x) → motive v) (v : Json) : motive v := by
  induction v using Json.induction with
  | null => exact step _ fun _ hx => nomatch hx
  | bool b => exact step _ fun _ hx => nomatch hx
  | number n => exact step _ fun _ hx => nomatch hx
  | text s => exact step _ fun _ hx => nomatch hx
  | list items ih => exact step _ ih
  | map members ih => exact step _ (List.forall_mem_map.2 ih)

theorem Distinct.of_mem_parts {v x : Json} (h : v.Distinct) (hx : x ∈ v.parts) : x.Distinct := by
  cases v with
  | list items => exact (distinct_list_iff items).1 h x hx
  | map members =>
    obtain ⟨m, hm, rfl⟩ := List.mem_map.1 hx
    exact ((distinct_map_iff members).1 h).2 m hm
  | _ => cases hx

/-- A map that says by its member `type` what it is. -/
def Tagged (v : Json) (name : String) : Prop :=
  ∃ members, v = .map members ∧ ("type", .text name) ∈ members

end Json

theorem Field.getElem?_parts_of_at? {f : Field} {v x : Json} {place : Nat}
    (h : f.at? v = some (place, x)) : v.parts[place]? = some x := by
  cases v with
  | map members =>
    obtain ⟨i, -, h⟩ := Option.bind_eq_some_iff.1 h
    obtain ⟨m, hm, h⟩ := Option.map_eq_some_iff.1 h
    obtain ⟨rfl, rfl⟩ := Prod.mk.inj h
    rw [Json.parts, List.getElem?_map, hm, Option.map_some]
  | list items =>
    obtain ⟨y, hy, h⟩ := Option.map_eq_some_iff.1 h
    obtain ⟨rfl, rfl⟩ := Prod.mk.inj h
    exact hy
  | _ => cases h

theorem Field.mem_parts_of_of? {f : Field} {v x : Json} (h : f.of? v = some x) : x ∈ v.parts := by
  obtain ⟨place, hx⟩ := Field.of?_eq_some_iff.1 h
  exact List.mem_of_getElem? (Field.getElem?_parts_of_at? hx)

/-! ## Columns -/

namespace Column

/-- A value has the fields of a column: its name is a text, and its table a text or null. A map may
leave the table out. -/
def Fields (v : Json) (c : Column) : Prop :=
  outline.Fits v ∧ (tableField.of? v).getD .null = .ofText? c.table ∧
    nameField.of? v = some (.text c.name)

theorem outline_separate : outline.Separate := by decide

theorem read_iff {v : Json} {c : Column} : read .stored v.toSource = .ok c ↔ Fields v c := by
  rw [read, Record.read_stored_iff outline_separate]
  refine and_congr_right' ?_
  simp only [Placed.seq_eq_ok_iff, Placed.map_eq_ok_iff, Record.optionalText_ofJson_iff,
    Record.required_ofJson_iff, Source.readText_toSource_iff]
  constructor
  · rintro ⟨_, _, ⟨t, ⟨ht, -⟩, rfl⟩, ⟨_, hn, rfl⟩, rfl⟩
    exact ⟨ht, hn⟩
  · rintro ⟨ht, hn⟩
    refine ⟨_, c.name, ⟨c.table, ⟨ht, ?_⟩, rfl⟩, ⟨_, hn, rfl⟩, rfl⟩
    -- the name stands after the table, so a list that has the name has the table too
    rintro htable items rfl
    match items with
    | [] => cases hn
    | _ :: _ => cases htable

theorem fields_unique {v : Json} {c d : Column} (hc : Fields v c) (hd : Fields v d) : c = d :=
  Except.ok.inj ((read_iff.2 hc).symm.trans (read_iff.2 hd))

end Column

/-! ## Literals -/

namespace Literal

/-- A value has the fields of a literal: its type names the kind, and its value is of that kind. A
null may have any value, or none. -/
def Fields (v : Json) (l : Literal) : Prop :=
  outline.Fits v ∧ (∃ x, kindField.of? v = some x ∧ x.Chooses l.kind.name) ∧
    (l = .null ∨ valueField.of? v = some l.value)

theorem outline_separate : outline.Separate := by decide

theorem ofValue_eq_ok_iff {kind : Kind} {value : Json} {l : Literal} :
    ofValue kind value = .ok l ↔ l.kind = kind ∧ (l = .null ∨ value = l.value) := by
  cases kind <;> cases value <;> cases l <;> simp [ofValue, Literal.kind, Literal.value, eq_comm]

/-- The value of a literal is no list or map, so it is in normal form. -/
theorem normal_eq_value_iff {v : Json} {l : Literal} : v.normal = l.value ↔ v = l.value := by
  cases l <;> cases v <;> simp [Json.normal, Literal.value]

theorem eq_null_of_value {l : Literal} (h : l.value = .null) : l = .null := by
  cases l with
  | null => rfl
  | _ => cases h

theorem Kind.read_iff {v : Json} {kind : Kind} :
    Kind.read .stored v.toSource = .ok kind ↔ v.Chooses kind.name := by
  rw [Kind.read, Kind.choices, Source.readChoice_named_iff (by decide)]
  refine and_iff_right ?_
  cases kind <;> simp

theorem read_iff {v : Json} {l : Literal} : read .stored v.toSource = .ok l ↔ Fields v l := by
  rw [read, bind_eq_ok_iff, Prod.exists]
  simp only [Record.read_stored_iff outline_separate, Placed.seq_eq_ok_iff, Placed.map_eq_ok_iff,
    Record.required_ofJson_iff, Record.withDefault_ofJson_iff, Kind.read_iff, Source.readAny_toSource,
    ofValue_eq_ok_iff]
  constructor
  · rintro ⟨kind, value, ⟨hfits, _, _, ⟨_, ⟨x, hx, hkind⟩, rfl⟩, hvalue, h⟩, rfl, hl⟩
    obtain ⟨rfl, rfl⟩ := Prod.mk.inj h
    refine ⟨hfits, ⟨x, hx, hkind⟩, ?_⟩
    rcases hl with hnull | rfl
    · exact Or.inl hnull
    · -- a value that is left out is null, so it makes a null only
      rcases hvalue with ⟨-, hnull⟩ | ⟨y, hy, hvalue⟩
      · exact Or.inl (eq_null_of_value hnull.symm)
      · exact Or.inr (by rw [hy, normal_eq_value_iff.1 (Except.ok.inj hvalue)])
  · rintro ⟨hfits, ⟨x, hx, hkind⟩, hl⟩
    -- the value that is read is the one in the field, or null
    refine ⟨l.kind, ((valueField.of? v).map Json.normal).getD .null,
      ⟨hfits, _, _, ⟨_, ⟨x, hx, hkind⟩, rfl⟩, ?_, rfl⟩, rfl, hl.imp_right fun hy => ?_⟩
    · cases hy : valueField.of? v with
      | none => exact Or.inl ⟨rfl, rfl⟩
      | some y => exact Or.inr ⟨y, rfl, rfl⟩
    · rw [hy, Option.map_some, Option.getD_some, normal_eq_value_iff.2 rfl]

theorem fields_unique {v : Json} {l m : Literal} (hl : Fields v l) (hm : Fields v m) : l = m :=
  Except.ok.inj ((read_iff.2 hl).symm.trans (read_iff.2 hm))

end Literal

/-! ## Binary operators -/

theorem Operator.read_iff {v : Json} {op : Operator} :
    Operator.read .stored v.toSource = .ok op ↔ v.Chooses op.text := by
  rw [Operator.read, Operator.choices, Source.readChoice_named_iff (by decide)]
  refine and_iff_right ?_
  cases op <;> simp

namespace Expr

/-- A value has the fields of a binary operator: the operator, two operands, and perhaps the mark,
which is a truth value. -/
def BinaryFields (v : Json) (op : Operator) (left right : Json) (marked : Bool) : Prop :=
  binaryOutline.Fits v ∧ (∃ x, operatorField.of? v = some x ∧ x.Chooses op.text) ∧
    leftField.of? v = some left ∧ rightField.of? v = some right ∧
    (markField.of? v).getD (.bool false) = .bool marked

theorem binaryOutline_separate : binaryOutline.Separate := by decide

/-- The condition that a value is. -/
def ofJson (v : Json) : Expr := ofSource v.toSource

theorem partsOf_toSource (v : Json) : partsOf v.toSource = v.parts.map ofJson := by
  have hitems (items : List Source) : ofItems items = items.map ofSource := by
    induction items with
    | nil => rfl
    | cons x rest ih => rw [ofItems, ih, List.map_cons]
  have hmembers (members : List (Quoted × Source)) :
      ofMembers members = members.map fun m => ofSource m.2 := by
    induction members with
    | nil => rfl
    | cons m rest ih => rw [ofMembers, ih, List.map_cons]
  cases v with
  | list items =>
    rw [Json.toSource, partsOf, hitems, Json.itemsToSource_eq_map, List.map_map]
    rfl
  | map members =>
    rw [Json.toSource, partsOf, hmembers, Json.membersToSource_eq_map, Json.parts, List.map_map,
      List.map_map]
    rfl
  | _ => rfl

/-- The operand in a field is the condition that the value of the field is. -/
theorem readOperand_iff {f : Field} {v : Json} {e : Expr} :
    (∃ place x, f.at? v = some (place, x) ∧
        readOperand (partsOf v.toSource) .stored place x.toSource = .ok e) ↔
      ∃ x, f.of? v = some x ∧ ofJson x = e := by
  -- the parts stand in the order of the text, so a value and its condition share their place
  have hread {place : Nat} {x : Json} (hx : f.at? v = some (place, x)) :
      readOperand (partsOf v.toSource) .stored place x.toSource = .ok (ofJson x) := by
    rw [readOperand, partsOf_toSource, List.getElem?_map, Field.getElem?_parts_of_at? hx]
    rfl
  constructor
  · rintro ⟨place, x, hx, he⟩
    exact ⟨x, Field.of?_eq_some_iff.2 ⟨place, hx⟩, Except.ok.inj ((hread hx).symm.trans he)⟩
  · rintro ⟨x, hx, rfl⟩
    obtain ⟨place, hx⟩ := Field.of?_eq_some_iff.1 hx
    exact ⟨place, x, hx, hread hx⟩

theorem readBinary_iff {v : Json} {e : Expr} :
    readBinary .stored v.toSource = .ok e ↔
      ∃ op x y marked, BinaryFields v op x y marked ∧
        .binary op (ofJson x) (ofJson y) marked = e := by
  rw [readBinary, readBinaryOf, Record.read_stored_iff binaryOutline_separate]
  simp only [Placed.seq_eq_ok_iff, Placed.map_eq_ok_iff, Record.required_ofJson_iff,
    Record.requiredAt_ofJson_iff, Record.withDefault_ofJson_iff, Operator.read_iff,
    readOperand_iff, Source.readBool_toSource_iff]
  constructor
  · rintro ⟨hfits, _, marked, ⟨_, _, ⟨_, _, ⟨op, hop, rfl⟩, ⟨x, hx, rfl⟩, rfl⟩, ⟨y, hy, rfl⟩, rfl⟩,
      hmark, rfl⟩
    refine ⟨op, x, y, marked, ⟨hfits, hop, hx, hy, ?_⟩, rfl⟩
    rcases hmark with ⟨hnone, rfl⟩ | ⟨_, hsome, rfl⟩
    · rw [hnone, Option.getD_none]
    · rw [hsome, Option.getD_some]
  · rintro ⟨op, x, y, marked, ⟨hfits, hop, hx, hy, hmark⟩, rfl⟩
    refine ⟨hfits, _, marked, ⟨_, _, ⟨_, _, ⟨op, hop, rfl⟩, ⟨x, hx, rfl⟩, rfl⟩, ⟨y, hy, rfl⟩, rfl⟩,
      ?_, rfl⟩
    cases hm : markField.of? v with
    | none =>
      rw [hm] at hmark
      exact Or.inl ⟨rfl, Json.bool.inj hmark⟩
    | some m =>
      rw [hm] at hmark
      exact Or.inr ⟨m, rfl, hmark⟩

theorem binaryFields_unique {v x y x' y' : Json} {op op' : Operator} {marked marked' : Bool}
    (h : BinaryFields v op x y marked) (h' : BinaryFields v op' x' y' marked') :
    op = op' ∧ x = x' ∧ y = y' ∧ marked = marked' := by
  have heq := (readBinary_iff.2 ⟨_, _, _, _, h, rfl⟩).symm.trans
    (readBinary_iff.2 ⟨_, _, _, _, h', rfl⟩)
  obtain ⟨hop, -, -, hmarked⟩ := Expr.binary.inj (Except.ok.inj heq)
  obtain ⟨-, -, hx, hy, -⟩ := h
  obtain ⟨-, -, hx', hy', -⟩ := h'
  exact ⟨hop, Option.some.inj (hx.symm.trans hx'), Option.some.inj (hy.symm.trans hy'), hmarked⟩

/-! ## Any node -/

/-- What a value is read as: the first of a column, a literal and a binary operator that it has the
fields of, and otherwise itself in normal form. -/
inductive Reads : Json → Expr → Prop where
  | column {v : Json} {c : Column} : Column.Fields v c → Reads v (.column c)
  | literal {v : Json} {l : Literal} : (∀ c, ¬ Column.Fields v c) → Literal.Fields v l →
      Reads v (.literal l)
  | binary {v x y : Json} {op : Operator} {marked : Bool} {left right : Expr} :
      (∀ c, ¬ Column.Fields v c) → (∀ l, ¬ Literal.Fields v l) → BinaryFields v op x y marked →
      Reads x left → Reads y right → Reads v (.binary op left right marked)
  | foreign {v : Json} : (∀ c, ¬ Column.Fields v c) → (∀ l, ¬ Literal.Fields v l) →
      (∀ op x y marked, ¬ BinaryFields v op x y marked) → Reads v (.foreign v.normal)

theorem ofSource_eq_classify (src : Source) : ofSource src = classify (partsOf src) src := by
  cases src <;> rfl

/-- Reading follows the cases of `Reads`. -/
theorem reads_ofJson (v : Json) : Reads v (ofJson v) := by
  induction v using Json.induction_parts with
  | step v ih =>
    rw [ofJson, ofSource_eq_classify, classify]
    -- the cases are those of `classify`, in its order
    cases hc : Column.read .stored v.toSource with
    | ok c => exact .column (Column.read_iff.1 hc)
    | error _ =>
      have hcolumn (c : Column) : ¬ Column.Fields v c := fun h =>
        nomatch hc.symm.trans (Column.read_iff.2 h)
      cases hl : Literal.read .stored v.toSource with
      | ok l => exact .literal hcolumn (Literal.read_iff.1 hl)
      | error _ =>
        have hliteral (l : Literal) : ¬ Literal.Fields v l := fun h =>
          nomatch hl.symm.trans (Literal.read_iff.2 h)
        cases hb : readBinaryOf (partsOf v.toSource) .stored v.toSource with
        | ok e =>
          obtain ⟨op, x, y, marked, h, rfl⟩ := readBinary_iff.1 hb
          -- the operands are values inside the node, so the hypothesis applies to them
          obtain ⟨-, -, hx, hy, -⟩ := id h
          exact .binary hcolumn hliteral h (ih x (Field.mem_parts_of_of? hx))
            (ih y (Field.mem_parts_of_of? hy))
        | error _ =>
          simp only [Json.toJson_toSource]
          exact .foreign hcolumn hliteral fun op x y marked h =>
            nomatch hb.symm.trans (readBinary_iff.2 ⟨op, x, y, marked, h, rfl⟩)

/-- A value is read as one condition only. -/
theorem Reads.unique {v : Json} {e e' : Expr} (h : Reads v e) : Reads v e' → e = e' := by
  -- the premises of the constructors exclude each other, and the fields determine the rest
  induction h generalizing e' with
  | column hc =>
    intro h'
    cases h' with
    | column hc' => rw [Column.fields_unique hc hc']
    | literal hn => exact absurd hc (hn _)
    | binary hn => exact absurd hc (hn _)
    | foreign hn => exact absurd hc (hn _)
  | literal hn hl =>
    intro h'
    cases h' with
    | column hc' => exact absurd hc' (hn _)
    | literal _ hl' => rw [Literal.fields_unique hl hl']
    | binary _ hn' => exact absurd hl (hn' _)
    | foreign _ hn' => exact absurd hl (hn' _)
  | binary hn hnl hb _ _ ihx ihy =>
    intro h'
    cases h' with
    | column hc' => exact absurd hc' (hn _)
    | literal _ hl' => exact absurd hl' (hnl _)
    | binary _ _ hb' hx' hy' =>
      obtain ⟨rfl, rfl, rfl, rfl⟩ := binaryFields_unique hb hb'
      rw [ihx hx', ihy hy']
    | foreign _ _ hn' => exact absurd hb (hn' _ _ _ _)
  | foreign hn hnl hnb =>
    intro h'
    cases h' with
    | column hc' => exact absurd hc' (hn _)
    | literal _ hl' => exact absurd hl' (hnl _)
    | binary _ _ hb' => exact absurd hb' (hnb _ _ _ _)
    | foreign => rfl

theorem reads_iff {v : Json} {e : Expr} : Reads v e ↔ ofJson v = e :=
  ⟨fun h => (reads_ofJson v).unique h, fun h => h ▸ reads_ofJson v⟩

/-! ## The kind of a node -/

/-- A node is read as what it says it is: as a column, a literal or a binary operator only if that is
its type, and otherwise it is kept. -/
def KeepsKind (v : Json) : Expr → Prop
  | .column _ => v.Tagged "column_ref"
  | .literal l => v.Tagged l.kind.name
  | .binary _ _ _ _ => v.Tagged "binary_expr"
  | .foreign w => w = v.normal

/-- A node has the fields of a column, a literal or a binary operator and does not say that it is
one. -/
def Misread (v : Json) : Prop :=
  (∃ c, Column.Fields v c) ∧ ¬ v.Tagged "column_ref" ∨
    (∀ c, ¬ Column.Fields v c) ∧ (∃ l, Literal.Fields v l ∧ ¬ v.Tagged l.kind.name) ∨
    (∀ c, ¬ Column.Fields v c) ∧ (∀ l, ¬ Literal.Fields v l) ∧
      (∃ op x y marked, BinaryFields v op x y marked) ∧ ¬ v.Tagged "binary_expr"

/-- What is misread is exactly what does not keep its kind. -/
theorem Reads.keepsKind_iff {v : Json} {e : Expr} (h : Reads v e) :
    KeepsKind v e ↔ ¬ Misread v := by
  constructor
  · -- each way of being misread fits one constructor only, and there the type is missing
    intro hkind hmis
    rcases hmis with ⟨⟨c, hc⟩, ht⟩ | ⟨hn, ⟨l, hl, ht⟩⟩ | ⟨hn, hnl, ⟨_, _, _, _, hb⟩, ht⟩
    · cases h with
      | column => exact ht hkind
      | literal hn => exact hn c hc
      | binary hn => exact hn c hc
      | foreign hn => exact hn c hc
    · cases h with
      | column hc => exact hn _ hc
      | literal _ hl' =>
        cases Literal.fields_unique hl hl'
        exact ht hkind
      | binary _ hnl => exact hnl l hl
      | foreign _ hnl => exact hnl l hl
    · cases h with
      | column hc => exact hn _ hc
      | literal _ hl => exact hnl _ hl
      | binary => exact ht hkind
      | foreign _ _ hnb => exact hnb _ _ _ _ hb
  · intro hmis
    cases h with
    | column hc => exact by_contra fun ht => hmis (Or.inl ⟨⟨_, hc⟩, ht⟩)
    | literal hn hl => exact by_contra fun ht => hmis (Or.inr (Or.inl ⟨hn, _, hl, ht⟩))
    | binary hn hnl hb =>
      exact by_contra fun ht => hmis (Or.inr (Or.inr ⟨hn, hnl, ⟨_, _, _, _, hb⟩, ht⟩))
    | foreign => rfl

end Expr

namespace Json

theorem normal_eq_text_iff {v : Json} {s : String} : v.normal = .text s ↔ v = .text s := by
  cases v <;> simp [normal]

theorem tagged_map_iff {members : List (String × Json)} {name : String} :
    (Json.map members).Tagged name ↔ ("type", .text name) ∈ members := by
  simp [Tagged]

theorem Tagged.unique {v : Json} (hv : v.Distinct) {m n : String} (hm : v.Tagged m)
    (hn : v.Tagged n) : m = n := by
  obtain ⟨members, rfl, hm⟩ := hm
  have hpair := List.inj_on_of_nodup_map ((distinct_map_iff members).1 hv).1 hm
    (tagged_map_iff.1 hn) rfl
  exact Json.text.inj (Prod.mk.inj hpair).2

/-- Normal form does not touch what a node says it is. -/
theorem tagged_normal_iff {v : Json} (hv : v.Distinct) {name : String} :
    v.normal.Tagged name ↔ v.Tagged name := by
  cases v with
  | map members =>
    have hnames : ((normalMembers members).map (·.1)).Nodup := by
      rw [normalMembers_eq_map, List.map_map]
      exact ((distinct_map_iff members).1 hv).1
    rw [normal, tagged_map_iff, tagged_map_iff, (ofMembers_perm hnames).mem_iff,
      normalMembers_eq_map, List.mem_map]
    constructor
    · rintro ⟨⟨_, x⟩, hm, heq⟩
      obtain ⟨rfl, hx⟩ := Prod.mk.inj heq
      obtain rfl := normal_eq_text_iff.1 hx
      exact hm
    · exact fun hm => ⟨_, hm, rfl⟩
  | _ => simp [normal, Tagged]

end Json

namespace Expr

/-- Written back, a node says what it said before exactly if it was read as that. -/
theorem Reads.tagged_toJson_iff {v : Json} {e : Expr} (h : Reads v e) (hv : v.Distinct) :
    (∀ name, e.toJson.Tagged name ↔ v.Tagged name) ↔ KeepsKind v e := by
  -- a node that is written with one type says the same as before exactly if that was its type
  have hkind {kind : String} (hwritten : ∀ name, e.toJson.Tagged name ↔ name = kind) :
      (∀ name, e.toJson.Tagged name ↔ v.Tagged name) ↔ v.Tagged kind := by
    constructor
    · exact fun hsame => (hsame kind).1 ((hwritten kind).2 rfl)
    · intro ht name
      rw [hwritten]
      exact ⟨fun hname => hname ▸ ht, fun hname => hname.unique hv ht⟩
  cases h with
  | column => exact hkind fun name => by simp [toJson, Column.toJson, Json.tagged_map_iff]
  | literal => exact hkind fun name => by simp [toJson, Literal.toJson, Json.tagged_map_iff]
  | @binary _ _ _ _ marked =>
    refine hkind fun name => ?_
    cases marked <;> simp [toJson, markMember, Json.tagged_map_iff]
  | foreign => exact iff_of_true (fun name => Json.tagged_normal_iff hv) rfl

/-- Any value is read as a condition, by its fields and those of its operands. A node is read as what
it says it is, and says the same when it is written back, exactly if it is not misread. -/
theorem read_keepsKind_iff (v : Json) :
    ∃ e, Expr.read .stored v.toSource = .ok e ∧
      (∀ room, Expr.read (.direct room) v.toSource = (v.toSource.check room).map fun _ => e) ∧
      Reads v e ∧ (KeepsKind v e ↔ ¬ Misread v) ∧
      (v.Distinct → ((∀ name, e.toJson.Tagged name ↔ v.Tagged name) ↔ ¬ Misread v)) := by
  have hreads := reads_ofJson v
  refine ⟨ofJson v, rfl, fun room => ?_, hreads, hreads.keepsKind_iff, fun hv => ?_⟩
  · rw [Expr.read, Source.readWhole]
    cases v.toSource.check room <;> rfl
  · exact (hreads.tagged_toJson_iff hv).trans hreads.keepsKind_iff

/-- A call of a function. -/
def callOfNow : Json := .map [("type", .text "function"), ("name", .text "now"), ("args", .list [])]

/-- A column without a table that is compared with a number. -/
def comparedColumn : Json :=
  .map [("type", .text "binary_expr"), ("operator", .text "="),
    ("left", .map [("type", .text "column_ref"), ("column", .text "x")]),
    ("right", .map [("type", .text "number"), ("value", .number (.int (.ofUInt64 1)))])]

/-- The marked disjunction of both, and what it is read as. -/
def comparedOrCalled : Json :=
  .map [("type", .text "binary_expr"), ("operator", .text "OR"), ("left", comparedColumn),
    ("right", callOfNow), ("paren", .bool true)]

def comparison : Expr :=
  .binary .equal (.column ⟨none, "x"⟩) (.literal (.number (.int (.ofUInt64 1)))) false

def comparisonOrCall : Expr := .binary .or comparison (.foreign callOfNow.normal) true

/-- The disjunction is read and written back as a binary operator, and the call as it is. -/
theorem read_keepsKind_comparedOrCalled :
    Expr.read .stored comparedOrCalled.toSource = .ok comparisonOrCall ∧
      ¬ Misread comparedOrCalled ∧
      (∀ name, comparisonOrCall.toJson.Tagged name ↔ comparedOrCalled.Tagged name) ∧
      ¬ Misread callOfNow ∧
      ∀ name, (Expr.foreign callOfNow.normal).toJson.Tagged name ↔ callOfNow.Tagged name := by
  have hdistinct : comparedOrCalled.Distinct := by
    simp [comparedOrCalled, comparedColumn, callOfNow, Json.Distinct, Json.DistinctMembers,
      Json.DistinctItems]
  have hcall : callOfNow.Distinct := hdistinct.of_mem_parts (by simp [Json.parts, comparedOrCalled])
  obtain ⟨e, hread, -, -, hkind, hsame⟩ := read_keepsKind_iff comparedOrCalled
  obtain rfl : e = comparisonOrCall := Except.ok.inj (hread.symm.trans rfl)
  have hmis : ¬ Misread comparedOrCalled := hkind.1 (Json.tagged_map_iff.2 List.mem_cons_self)
  obtain ⟨e, hreadCall, -, -, hkindCall, hsameCall⟩ := read_keepsKind_iff callOfNow
  obtain rfl : e = .foreign callOfNow.normal := Except.ok.inj (hreadCall.symm.trans rfl)
  have hmisCall : ¬ Misread callOfNow := hkindCall.1 rfl
  exact ⟨hread, hmis, (hsame hdistinct).2 hmis, hmisCall, (hsameCall hcall).2 hmisCall⟩

/-- A call of a function that has a member `column`. -/
def callWithColumn : Json := .map [("type", .text "function"), ("column", .text "x")]

/-- The call is read as a column, and written back as one. -/
theorem read_callWithColumn :
    Expr.read .stored callWithColumn.toSource = .ok (.column ⟨none, "x"⟩) ∧
      callWithColumn.Tagged "function" ∧ ¬ callWithColumn.Tagged "column_ref" ∧
      (Expr.column ⟨none, "x"⟩).toJson.Tagged "column_ref" := by
  refine ⟨rfl, ?_, ?_, ?_⟩ <;>
    simp [callWithColumn, Json.tagged_map_iff, Expr.toJson, Column.toJson]

end Expr

end QueryShaping
