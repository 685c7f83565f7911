import QueryShaping.Proofs.Documents
import QueryShaping.Proofs.Runs
import QueryShaping.Proofs.Stages
import QueryShaping.Proofs.Steady

/-!
# Statements that are written and read back

What a statement carries along without a meaning is written as it is. It is read back as the same only
if it still has no meaning: a foreign node must not have the fields of a column, a literal or a binary
operator, and a spare member must not have the name of a field. This holds of every statement that is
read, and no request changes it.

## What this module delivers

- `Expr.Settled`: every foreign node of a condition is a value that all readers of nodes refuse.
- `Expr.reread`, `Expr.reads_toJson`: what any condition is read back as.
- `Expr.Reads.settled`, `Expr.Settled.reread_eq`: conditions that are read are settled, and settled
  ones are read back as they are.
- `Statement.Tidy`, `Statement.Tidy.read_toJson_of_room`: statements whose parts are as a reader leaves
  them, and what they are read back as from a store, and from a text with room for all but the
  condition.
- `Statement.Settled`, `Statement.settled_of_read`, `Statement.Settled.shapeAll`: statements that are
  read are settled too, and runs of requests keep it.
- `Statement.Settled.read_toJson`, `Statement.read_toJson_shapeAll`: settled statements are read back
  as they are.
-/

set_option autoImplicit false

namespace QueryShaping

open Source (readText readOptional)

/-! ## Conditions -/

namespace Expr

/-- Every foreign node is a value in normal form that the readers of columns, literals and binary
operators refuse. -/
def Settled : Expr → Prop
  | .binary _ left right _ => left.Settled ∧ right.Settled
  | .foreign v => v.normal = v ∧ Refused v
  | _ => True

/-- Every foreign node is a value in normal form. -/
def Tidy : Expr → Prop
  | .binary _ left right _ => left.Tidy ∧ right.Tidy
  | .foreign v => v.normal = v
  | _ => True

/-- The condition with its foreign nodes taken for what they are on their own. -/
def reread : Expr → Expr
  | .binary op left right marked => .binary op left.reread right.reread marked
  | .foreign v => ofJson v
  | e => e

theorem Reads.tidy {v : Json} {e : Expr} (h : Reads v e) : e.Tidy := by
  induction h with
  | column _ => trivial
  | literal _ _ => trivial
  | binary _ _ _ _ _ ihx ihy => exact ⟨ihx, ihy⟩
  | @foreign v _ _ _ => exact v.normal_normal

theorem Settled.tidy {e : Expr} (h : e.Settled) : e.Tidy := by
  induction e with
  | column c => trivial
  | literal l => trivial
  | foreign v => exact h.1
  | binary op left right marked ihl ihr => exact ⟨ihl h.1, ihr h.2⟩

/-- What all readers of nodes refuse is no other node when it is looked at again. -/
theorem Settled.reread_eq {e : Expr} (h : e.Settled) : e.reread = e := by
  induction e with
  | column c => rfl
  | literal l => rfl
  | foreign v =>
    obtain ⟨hnormal, hrefused⟩ := h
    obtain ⟨hn, hnl, hnb⟩ := refused_iff.1 hrefused
    have hreads := Reads.foreign hn hnl hnb
    rw [hnormal] at hreads
    exact reads_iff.1 hreads
  | binary op left right marked ihl ihr => rw [reread, ihl h.1, ihr h.2]

/-- What is read from a value that names no member twice is settled. -/
theorem Reads.settled {v : Json} {e : Expr} (h : Reads v e) (hv : v.Distinct) : e.Settled := by
  induction h with
  | column _ => trivial
  | literal _ _ => trivial
  | binary _ _ hb _ _ ihx ihy =>
    obtain ⟨-, -, hx, hy, -⟩ := id hb
    exact ⟨ihx (hv.of_mem_parts (Field.mem_parts_of_of? hx)),
      ihy (hv.of_mem_parts (Field.mem_parts_of_of? hy))⟩
  | @foreign v hn hnl hnb =>
    -- what has no fields to be read has none in normal form either
    have hrefused := refused_iff.2 ⟨hn, hnl, hnb⟩
    exact ⟨v.normal_normal, hrefused.reordered hv.reordered_normal⟩

/-- A condition without foreign nodes is settled. -/
theorem Plain.settled {e : Expr} (h : e.Plain) : e.Settled := by
  induction e with
  | column c => trivial
  | literal l => trivial
  | foreign v => exact h.elim
  | binary op left right marked ihl ihr => exact ⟨ihl h.1, ihr h.2⟩

theorem Plain.toJson_ne_null {e : Expr} (h : e.Plain) : e.toJson ≠ .null := by
  cases e with
  | foreign v => exact h.elim
  | _ => nofun

end Expr

/-! ## Reading nodes back -/

theorem Column.fields_toJson (c : Column) : Column.Fields c.toJson c :=
  ⟨Outline.fits_map ["type", "table", "column"] rfl (by decide), rfl, rfl⟩

/-- What has no member `column` is no column. -/
theorem Column.not_fields_of_none {v : Json} (h : nameField.of? v = none) (c : Column) :
    ¬ Column.Fields v c := by
  rintro ⟨-, -, hname⟩
  cases h.symm.trans hname

theorem Literal.fields_toJson (l : Literal) : Literal.Fields l.toJson l :=
  ⟨Outline.fits_map ["type", "value"] rfl (by decide), ⟨_, rfl, .inl rfl⟩, .inr rfl⟩

namespace Expr

theorem binaryFields_toJson (op : Operator) (left right : Expr) (marked : Bool) :
    BinaryFields (binary op left right marked).toJson op left.toJson right.toJson marked := by
  cases marked with
  | false =>
    have hfits : binaryOutline.Fits (binary op left right false).toJson :=
      Outline.fits_map ["type", "operator", "left", "right"] rfl (by decide)
    exact ⟨hfits, ⟨_, rfl, .inl rfl⟩, rfl, rfl, rfl⟩
  | true =>
    have hfits : binaryOutline.Fits (binary op left right true).toJson :=
      Outline.fits_map ["type", "operator", "left", "right", "parenthesized"] rfl (by decide)
    exact ⟨hfits, ⟨_, rfl, .inl rfl⟩, rfl, rfl, rfl⟩

/-- A binary operator has no member `column`, and its type is that of no literal. -/
theorem not_column_toJson (op : Operator) (left right : Expr) (marked : Bool) (c : Column) :
    ¬ Column.Fields (binary op left right marked).toJson c := by
  apply Column.not_fields_of_none
  cases marked <;> rfl

theorem not_literal_toJson (op : Operator) (left right : Expr) (marked : Bool) (l : Literal) :
    ¬ Literal.Fields (binary op left right marked).toJson l := by
  rintro ⟨-, ⟨x, hx, hkind⟩, -⟩
  obtain rfl : Json.text "binary_expr" = x := by
    cases marked <;> exact Option.some.inj hx
  rcases hkind with hkind | hkind
  · have hname (kind : Literal.Kind) : "binary_expr" ≠ kind.name := by cases kind <;> decide
    exact hname l.kind (Json.text.inj hkind)
  · cases hkind

/-- A condition is read back with its foreign nodes taken for what they are. -/
theorem reads_toJson (e : Expr) : Reads e.toJson e.reread := by
  induction e with
  -- each kind of node is written so that the readers before its own refuse it
  | column c => exact .column c.fields_toJson
  | literal l => exact .literal (Column.not_fields_of_none rfl) l.fields_toJson
  | binary op left right marked ihl ihr =>
    exact .binary (not_column_toJson op left right marked) (not_literal_toJson op left right marked)
      (binaryFields_toJson op left right marked) ihl ihr
  | foreign v => exact reads_ofJson v

theorem read_toJson (e : Expr) : Expr.read .stored e.toJson.toSource = .ok e.reread :=
  read_toSource_iff.2 ⟨trivial, e.reads_toJson⟩

theorem Settled.read_toJson {e : Expr} (h : e.Settled) :
    Expr.read .stored e.toJson.toSource = .ok e := by
  rw [e.read_toJson, h.reread_eq]

end Expr

/-! ## Reading parts of statements back -/

theorem Source.readOptional_ofText? (s : Option String) :
    readOptional readText (Json.ofText? s).toSource = .ok s := by
  cases s <;> rfl

/-- A list is read back as what its items are read back as. -/
theorem Source.readList_toJson {α : Type} {read : Reading → Source → Except ReadError α}
    {write : α → Json} {g : α → α} {values : List α}
    (h : ∀ a ∈ values, read .stored (write a).toSource = .ok (g a)) :
    readList read .stored (Json.list (values.map write)).toSource = .ok (values.map g) := by
  refine readList_toSource_iff.2 ⟨_, .stored, rfl, rfl, ?_⟩
  rw [List.forall₂_map_left_iff, List.forall₂_map_right_iff]
  exact List.forall₂_same.2 h

theorem Source.readListOrNull_toJson {α : Type} {read : Reading → Source → Except ReadError α}
    {write : α → Json} {values : List α}
    (h : ∀ a ∈ values, read .stored (write a).toSource = .ok a) :
    readListOrNull read .stored (Json.list (values.map write)).toSource = .ok values := by
  have hlist := Source.readList_toJson (g := id) h
  rw [List.map_id] at hlist
  rw [readListOrNull, map_eq_ok_iff]
  refine ⟨some values, ?_, rfl⟩
  rw [Source.readOptional_toSource_iff]
  exact .inr ⟨nofun, values, hlist, rfl⟩

/-- A part that may be absent is read back if it is not written as null. -/
theorem Source.readOptional_toJson {α : Type} {read : Source → Except ReadError α}
    {write : α → Json} {g : α → α} {part : Option α}
    (h : ∀ a, part = some a → write a ≠ .null ∧ read (write a).toSource = .ok (g a)) :
    readOptional read ((part.map write).getD .null).toSource = .ok (part.map g) := by
  rw [Source.readOptional_toSource_iff]
  cases part with
  | none => exact .inl ⟨rfl, rfl⟩
  | some a =>
    obtain ⟨hnull, hread⟩ := h a rfl
    exact .inr ⟨hnull, g a, hread, rfl⟩

theorem Source.readOptionalList_toJson {α : Type} {read : Reading → Source → Except ReadError α}
    {write : α → Json} {g : α → α} {part : Option (List α)}
    (h : ∀ a, read .stored (write a).toSource = .ok (g a)) :
    readOptional (readList read .stored) (Json.ofList? write part).toSource
      = .ok (part.map (List.map g)) := by
  have hlist : Json.ofList? write part
      = (part.map fun values => Json.list (values.map write)).getD .null := by
    cases part <;> rfl
  rw [hlist]
  exact Source.readOptional_toJson fun _ _ => ⟨nofun, Source.readList_toJson fun a _ => h a⟩

theorem OrderEntry.fields_toJson (e : OrderEntry) : Fields e.toJson e :=
  ⟨Outline.fits_map ["expr", "type"] rfl (by decide), ⟨_, rfl, e.column.fields_toJson⟩, _, rfl,
    .inl rfl⟩

theorem OrderEntry.read_toJson (e : OrderEntry) : read .stored e.toJson.toSource = .ok e :=
  read_iff.2 e.fields_toJson

theorem SelectItem.fields_toJson (item : SelectItem) : Fields item.toJson item :=
  ⟨Outline.fits_map ["expr", "as"] rfl (by decide), ⟨_, rfl, item.column.fields_toJson⟩, rfl⟩

theorem SelectItem.read_toJson (item : SelectItem) : read .stored item.toJson.toSource = .ok item :=
  read_iff.2 item.fields_toJson

theorem Window.fields_toJson (w : Window) : Fields w.toJson w :=
  ⟨_, _, rfl, Literal.fields_toJson _, Literal.fields_toJson _⟩

theorem Window.read_toJson (w : Window) : read .stored w.toJson.toSource = .ok w :=
  read_iff.2 w.fields_toJson

/-! ## Spare members -/

/-- Members that no field of a record goes by, as a reader keeps them: in order, and with values in
normal form. -/
structure Outline.Spares (o : Outline) (extra : List (String × Json)) : Prop where
  ascending : Json.Ascending extra
  normal : ∀ m ∈ extra, m.2.normal = m.2
  unnamed : ∀ m ∈ extra, o.find? (.text m.1) = none

namespace Outline

variable {o : Outline} {known extra : List (String × Json)}

/-- What is read beside the fields is spare. -/
theorem spares_others (o : Outline) (members : List (String × Json)) :
    o.Spares (Record.others o (Json.membersToSource members)) := by
  rw [Record.others_toSource]
  refine ⟨Json.ascending_ofMembers _, fun m hm => ?_, fun m hm => ?_⟩
  · obtain ⟨hm, -⟩ := List.mem_filter.1 (Json.mem_of_mem_ofMembers hm)
    obtain ⟨n, -, rfl⟩ := List.mem_map.1 hm
    exact n.2.normal_normal
  · obtain ⟨-, hnone⟩ := List.mem_filter.1 (Json.mem_of_mem_ofMembers hm)
    exact Option.isNone_iff_eq_none.1 hnone

namespace Spares

variable (h : o.Spares extra)

include h

/-- Beside the fields the spare members are found again. -/
theorem others_append (hknown : ∀ m ∈ known, (o.find? (.text m.1)).isSome = true) :
    Record.others o (Json.membersToSource (known ++ extra)) = extra := by
  have hdropped : (known.map fun m => (m.1, m.2.normal)).filter
      (fun m => (o.find? (.text m.1)).isNone) = [] := by
    refine List.filter_eq_nil_iff.2 fun m hm => ?_
    obtain ⟨n, hn, rfl⟩ := List.mem_map.1 hm
    have hsome := hknown n hn
    simp only [Option.isNone_iff_eq_none]
    exact Option.isSome_iff_ne_none.1 hsome
  have hsame : (extra.map fun m => (m.1, m.2.normal)) = extra := by
    refine (List.map_congr_left fun m hm => ?_).trans (List.map_id extra)
    rw [h.normal m hm]
    rfl
  have hkept : extra.filter (fun m => (o.find? (.text m.1)).isNone) = extra :=
    List.filter_eq_self.2 fun m hm => Option.isNone_iff_eq_none.2 (h.unnamed m hm)
  rw [Record.others_toSource, List.map_append, List.filter_append, hdropped, List.nil_append, hsame,
    hkept, Json.ofMembers_of_ascending h.ascending]

theorem fits_append (names : List String) (hnames : known.map (·.1) = names)
    (hfits : o.FitsNames names) : o.Fits (.map (known ++ extra)) := by
  rw [fits_map_iff, List.map_append, hnames]
  intro f hf
  have hnone : (extra.map (·.1)).countP f.goesBy = 0 := by
    refine List.countP_eq_zero.2 fun name hname => ?_
    obtain ⟨m, hm, rfl⟩ := List.mem_map.1 hname
    have hfind := List.find?_eq_none.1 (h.unnamed m hm) f hf
    exact hfind
  rw [List.countP_append, hnone, Nat.add_zero]
  exact hfits f hf

theorem distinct_append (hknown : ∀ m ∈ known, (o.find? (.text m.1)).isSome = true)
    (hnodup : (known.map (·.1)).Nodup) (hvalues : ∀ m ∈ known, m.2.Distinct) :
    (Json.map (known ++ extra)).Distinct := by
  rw [Json.distinct_map_iff, List.map_append]
  refine ⟨hnodup.append h.ascending.nodup ?_, fun m hm => ?_⟩
  · -- the name of a field is no name of a spare member
    intro name hname hextra
    obtain ⟨m, hm, rfl⟩ := List.mem_map.1 hname
    obtain ⟨n, hn, heq⟩ := List.mem_map.1 hextra
    have hsome := hknown m hm
    rw [← heq, h.unnamed n hn] at hsome
    cases hsome
  · rcases List.mem_append.1 hm with hm | hm
    · exact hvalues m hm
    · rw [← h.normal m hm]
      exact Json.distinct_normal _

end Spares

end Outline

/-- A field of a map is found before further members. -/
theorem Field.of?_append {f : Field} {known extra : List (String × Json)} {x : Json}
    (h : f.of? (.map known) = some x) : f.of? (.map (known ++ extra)) = some x := by
  rw [Field.of?_map] at h ⊢
  obtain ⟨m, hm, rfl⟩ := Option.map_eq_some_iff.1 h
  rw [List.find?_append, hm]
  rfl

/-! ## Tables -/

namespace Table

/-- The members of a table that are fields. -/
def known (t : Table) : List (String × Json) :=
  [("db", .ofText? t.database), ("table", .ofText? t.name), ("as", .ofText? t.aliasName)]

theorem find?_known (t : Table) : ∀ m ∈ t.known, (outline.find? (.text m.1)).isSome = true := by
  intro m hm
  simp only [known, List.mem_cons, List.not_mem_nil, or_false] at hm
  rcases hm with rfl | rfl | rfl <;> rfl

/-- The spare members of a table that is read have no names of fields. -/
theorem spares_of_read {way : Reading} {v : Json} {t : Table} (h : read way v.toSource = .ok t) :
    outline.Spares t.extra := by
  obtain ⟨members, fin, inner, hv, -, h⟩ := Record.readMap_eq_ok h
  cases v with
  | map ms =>
    obtain ⟨rfl, -⟩ := Source.map.inj hv
    simp only [Placed.seq_eq_ok_iff, Placed.map_eq_ok_iff] at h
    obtain ⟨_, _, ⟨_, _, ⟨_, -, rfl⟩, -, rfl⟩, -, rfl⟩ := h
    exact outline.spares_others ms
  | _ => cases hv

theorem read_toJson {t : Table} (h : outline.Spares t.extra) :
    read .stored t.toJson.toSource = .ok t := by
  have hfits : outline.Fits t.toJson :=
    h.fits_append ["db", "table", "as"] rfl (by decide)
  have hfield {f : Field} {s : Option String} (hf : f.of? (.map t.known) = some (.ofText? s)) :
      (Record.ofJson outline t.toJson).optional f readText = .ok s :=
    Record.optional_ofJson_iff.2 (.inr ⟨_, Field.of?_append hf, Source.readOptional_ofText? s⟩)
  have hdatabase := hfield (f := databaseField) (s := t.database) rfl
  have hname := hfield (f := nameField) (s := t.name) rfl
  have halias := hfield (f := aliasField) (s := t.aliasName) rfl
  refine (Record.readMap_toSource_iff outline_separate (Reading.hasRoom_stored t.toJson)).2
    ⟨t.known ++ t.extra, rfl, hfits, .stored, rfl, ?_⟩
  rw [h.others_append t.find?_known, hdatabase, hname, halias]
  rfl

end Table

/-! ## Written forms -/

theorem Json.distinct_ofText? (s : Option String) : (Json.ofText? s).Distinct := by
  cases s <;> trivial

theorem Column.distinct_toJson (c : Column) : c.toJson.Distinct := by
  have hnames : ["type", "table", "column"].Nodup := by decide
  exact ⟨hnames, trivial, Json.distinct_ofText? c.table, trivial, trivial⟩

theorem Literal.distinct_toJson (l : Literal) : l.toJson.Distinct := by
  have hnames : ["type", "value"].Nodup := by decide
  have hvalue : l.value.Distinct := by cases l <;> trivial
  exact ⟨hnames, trivial, hvalue, trivial⟩

theorem Expr.Tidy.distinct_toJson {e : Expr} (h : e.Tidy) : e.toJson.Distinct := by
  induction e with
  | column c => exact c.distinct_toJson
  | literal l => exact l.distinct_toJson
  | binary op left right marked ihl ihr =>
    cases marked with
    | false =>
      have hnames : ["type", "operator", "left", "right"].Nodup := by decide
      exact ⟨hnames, trivial, trivial, ihl h.1, ihr h.2, trivial⟩
    | true =>
      have hnames : ["type", "operator", "left", "right", "parenthesized"].Nodup := by decide
      exact ⟨hnames, trivial, trivial, ihl h.1, ihr h.2, trivial, trivial⟩
  | foreign v =>
    have hdistinct := v.distinct_normal
    rw [h] at hdistinct
    exact hdistinct

theorem OrderEntry.distinct_toJson (e : OrderEntry) : e.toJson.Distinct := by
  have hnames : ["expr", "type"].Nodup := by decide
  exact ⟨hnames, e.column.distinct_toJson, trivial, trivial⟩

theorem SelectItem.distinct_toJson (item : SelectItem) : item.toJson.Distinct := by
  have hnames : ["expr", "as"].Nodup := by decide
  exact ⟨hnames, item.column.distinct_toJson, Json.distinct_ofText? item.aliasName, trivial⟩

theorem Window.distinct_toJson (w : Window) : w.toJson.Distinct :=
  ⟨Literal.distinct_toJson _, Literal.distinct_toJson _, trivial⟩

theorem Table.distinct_toJson {t : Table} (h : outline.Spares t.extra) : t.toJson.Distinct := by
  have hnames : ["db", "table", "as"].Nodup := by decide
  refine h.distinct_append t.find?_known hnames fun m hm => ?_
  simp only [List.mem_cons, List.not_mem_nil, or_false] at hm
  rcases hm with rfl | rfl | rfl <;> exact Json.distinct_ofText? _

/-! ## Statements -/

namespace Statement

/-- What a statement carries along is as a reader leaves it: foreign nodes and spare members have no
meaning, and the values are in normal form. The condition is not written as null. -/
structure Settled (st : Statement) : Prop where
  distinct : st.distinct.normal = st.distinct
  tables : ∀ t ∈ st.tables, Table.outline.Spares t.extra
  condition : ∀ e, st.condition = some e → e.Settled ∧ e.toJson ≠ .null
  groups : ∀ es, st.groups = some es → ∀ e ∈ es, e.Settled
  extra : outline.Spares st.extra

/-- The parts of a statement are as a reader leaves them: values that are carried along are in normal
form, spare members have no names of fields, and the condition is not written as null. -/
structure Tidy (st : Statement) : Prop where
  distinct : st.distinct.normal = st.distinct
  tables : ∀ t ∈ st.tables, Table.outline.Spares t.extra
  condition : ∀ e, st.condition = some e → e.Tidy ∧ e.toJson ≠ .null
  groups : ∀ es, st.groups = some es → ∀ e ∈ es, e.Tidy
  extra : outline.Spares st.extra

/-- The statement with the foreign nodes of its conditions taken for what they are on their own. -/
def reread (st : Statement) : Statement :=
  { st with
    condition := st.condition.map Expr.reread
    groups := st.groups.map (List.map Expr.reread) }

theorem Settled.tidy {st : Statement} (h : st.Settled) : st.Tidy where
  distinct := h.distinct
  tables := h.tables
  condition e he := ⟨(h.condition e he).1.tidy, (h.condition e he).2⟩
  groups es hes e he := (h.groups es hes e he).tidy
  extra := h.extra

theorem Settled.reread_eq {st : Statement} (h : st.Settled) : st.reread = st := by
  have hcondition : st.condition.map Expr.reread = st.condition := by
    cases hc : st.condition with
    | none => rfl
    | some e => rw [Option.map_some, (h.condition e hc).1.reread_eq]
  have hgroups : st.groups.map (List.map Expr.reread) = st.groups := by
    cases hg : st.groups with
    | none => rfl
    | some es =>
      have hes : es.map Expr.reread = es :=
        (List.map_congr_left fun e he => (h.groups es hg e he).reread_eq).trans (List.map_id es)
      rw [Option.map_some, hes]
  rw [reread, hcondition, hgroups]

/-- The members of a statement that are fields. -/
def known (st : Statement) : List (String × Json) :=
  [("type", .text "select"),
    ("distinct", st.distinct),
    ("columns", .list (st.items.map SelectItem.toJson)),
    ("from", .list (st.tables.map Table.toJson)),
    ("where", (st.condition.map Expr.toJson).getD .null),
    ("groupby", .ofList? Expr.toJson st.groups),
    ("orderby", .ofList? OrderEntry.toJson st.order),
    ("limit", (st.window.map Window.toJson).getD .null)]

theorem find?_known (st : Statement) :
    ∀ m ∈ st.known, (outline.find? (.text m.1)).isSome = true := by
  intro m hm
  simp only [known, List.mem_cons, List.not_mem_nil, or_false] at hm
  rcases hm with rfl | rfl | rfl | rfl | rfl | rfl | rfl | rfl <;> rfl

theorem distinct_list {α : Type} {write : α → Json} {values : List α}
    (h : ∀ a ∈ values, (write a).Distinct) : (Json.list (values.map write)).Distinct := by
  rw [Json.distinct_list_iff]
  exact List.forall_mem_map.2 h

/-- A tidy statement is written as a value that names no member twice. -/
theorem Tidy.distinct_toJson {st : Statement} (h : st.Tidy) : st.toJson.Distinct := by
  have hnames : ["type", "distinct", "columns", "from", "where", "groupby", "orderby", "limit"].Nodup :=
    by decide
  refine h.extra.distinct_append st.find?_known hnames fun m hm => ?_
  simp only [List.mem_cons, List.not_mem_nil, or_false] at hm
  rcases hm with rfl | rfl | rfl | rfl | rfl | rfl | rfl | rfl
  · trivial
  · have hdistinct := st.distinct.distinct_normal
    rw [h.distinct] at hdistinct
    exact hdistinct
  · exact distinct_list fun item _ => item.distinct_toJson
  · exact distinct_list fun t ht => Table.distinct_toJson (h.tables t ht)
  · cases hc : st.condition with
    | none => trivial
    | some e => exact (h.condition e hc).1.distinct_toJson
  · cases hg : st.groups with
    | none => trivial
    | some es => exact distinct_list fun e he => (h.groups es hg e he).distinct_toJson
  · cases ho : st.order with
    | none => trivial
    | some es => exact distinct_list fun e _ => e.distinct_toJson
  · cases hw : st.window with
    | none => trivial
    | some w => exact w.distinct_toJson

/-- The condition of a statement as it is written. -/
def writtenCondition (st : Statement) : Json := (st.condition.map Expr.toJson).getD .null

/-- A written condition is read back if it can be read to its end. -/
theorem Tidy.condition_toJson {st : Statement} (h : st.Tidy) (way : Reading) :
    readOptional (Expr.read way) st.writtenCondition.toSource
      = (fun _ => st.condition.map Expr.reread) <$> st.writtenCondition.toSource.readWhole way := by
  rw [writtenCondition]
  cases hc : st.condition with
  | none => cases way <;> rfl
  | some e =>
    have hnull : e.toJson.toSource ≠ .atom .null := fun hnull =>
      (h.condition e hc).2 (Json.toSource_inj _ .null hnull)
    have hreread : Expr.ofSource e.toJson.toSource = e.reread := Expr.reads_iff.1 e.reads_toJson
    simp only [Option.map_some, Option.getD_some, Source.readOptional_of_ne_null hnull, Expr.read,
      hreread]
    cases e.toJson.toSource.readWhole way <;> rfl

/-- The members that a tidy statement is written with are those of its fields, and others that there
is room for. -/
theorem Tidy.readMembers_toJson {st : Statement} (h : st.Tidy) {way : Reading}
    (hroom : ∀ name x, (name, x) ∈ st.known ++ st.extra → name ≠ "where" → way.HasRoom x) :
    Record.readMembers true outline way .closed 0 []
      (Json.membersToSource (st.known ++ st.extra)) = .ok () := by
  have hfits : outline.Fits st.toJson :=
    h.extra.fits_append ["type", "distinct", "columns", "from", "where",
      "groupby", "orderby", "limit"] rfl (by decide)
  rw [Record.readMembers_toSource, Record.readMembers_stored_iff outline_separate]
  · exact hfits
  · -- what is no field has another name than the condition
    intro m hm hnone
    refine hroom m.1 m.2 hm fun hname => ?_
    rw [hname] at hnone
    cases hnone

/-- What a part of a tidy statement is read back as from a store, it is read back as from a text with
room for it. -/
theorem Tidy.read_known {α : Type} {read : Reading → Source → Except ReadError α} {st : Statement}
    (h : st.Tidy) (hread : Source.Steady read) {name : String} {x : Json}
    (hm : (name, x) ∈ st.known) {way : Reading} (hroom : way.HasRoom x) {a : α}
    (ha : read .stored x.toSource = .ok a) : read way x.toSource = .ok a := by
  have hdistinct := ((Json.distinct_map_iff _).1 h.distinct_toJson).2 _ (List.mem_append_left _ hm)
  exact hread ⟨hdistinct, hdistinct, rfl⟩ (Reading.hasRoom_stored x) hroom a ha

/-- A tidy statement is read back, with the foreign nodes of its conditions taken for what they are,
if there is room for all of its parts. Only the condition may be too deep. -/
theorem Tidy.read_toJson_of_room {st : Statement} (h : st.Tidy) {way inner : Reading}
    (henter : way.enter = .ok inner)
    (hroom : ∀ name x, (name, x) ∈ st.known ++ st.extra → name ≠ "where" → inner.HasRoom x) :
    Statement.read way st.toJson.toSource
      = (fun _ => st.reread) <$> st.writtenCondition.toSource.readWhole inner := by
  have hpart {α : Type} {read : Reading → Source → Except ReadError α} (name : String) {f : Field}
      {x : Json} {a : α} (hf : f.of? (.map st.known) = some x) (hm : (name, x) ∈ st.known)
      (hname : name ≠ "where") (hread : Source.Steady read) (ha : read .stored x.toSource = .ok a) :
      ∃ y, f.of? st.toJson = some y ∧ read inner y.toSource = .ok a := by
    have hthere := hroom name x (List.mem_append_left _ hm) hname
    exact ⟨x, Field.of?_append hf, h.read_known hread hm hthere ha⟩
  have hkind : (Record.ofJson outline st.toJson).required kindField (readKind inner) = .ok () :=
    Record.required_ofJson_iff.2
      (hpart "type" rfl (by simp [known]) (by decide) (Source.steady_readChoice _) rfl)
  have hdistinct : (Record.ofJson outline st.toJson).withDefault distinctField .null
      (Source.readAny inner) = .ok st.distinct :=
    Record.withDefault_ofJson_iff.2 (.inr (hpart "distinct" rfl (by simp [known]) (by decide)
      Source.steady_readAny (Source.readAny_toSource_iff.2 ⟨trivial, h.distinct⟩)))
  have hitems : (Record.ofJson outline st.toJson).withDefault itemsField []
      (Source.readListOrNull SelectItem.read inner) = .ok st.items :=
    Record.withDefault_ofJson_iff.2 (.inr (hpart "columns" rfl (by simp [known]) (by decide)
      (Source.steady_readListOrNull SelectItem.steady_read)
      (Source.readListOrNull_toJson fun item _ => item.read_toJson)))
  have htables : (Record.ofJson outline st.toJson).withDefault tablesField []
      (Source.readListOrNull Table.read inner) = .ok st.tables :=
    Record.withDefault_ofJson_iff.2 (.inr (hpart "from" rfl (by simp [known]) (by decide)
      (Source.steady_readListOrNull Table.steady_read)
      (Source.readListOrNull_toJson fun t ht => Table.read_toJson (h.tables t ht))))
  have hcondition : (Record.ofJson outline st.toJson).optional conditionField (Expr.read inner)
      = .ofExcept 4 (readOptional (Expr.read inner) st.writtenCondition.toSource) := rfl
  have hgroups : (Record.ofJson outline st.toJson).optional groupsField
      (Source.readList Expr.read inner) = .ok (st.groups.map (List.map Expr.reread)) :=
    Record.optional_ofJson_iff.2 (.inr (hpart "groupby" rfl (by simp [known]) (by decide)
      (Source.steady_readOptional (Source.steady_readList Expr.steady_read))
      (Source.readOptionalList_toJson Expr.read_toJson)))
  have horder : (Record.ofJson outline st.toJson).optional orderField
      (Source.readList OrderEntry.read inner) = .ok (st.order.map (List.map id)) :=
    Record.optional_ofJson_iff.2 (.inr (hpart "orderby" rfl (by simp [known]) (by decide)
      (Source.steady_readOptional (Source.steady_readList OrderEntry.steady_read))
      (Source.readOptionalList_toJson OrderEntry.read_toJson)))
  have hwindow : (Record.ofJson outline st.toJson).optional windowField (Window.read inner)
      = .ok (st.window.map id) :=
    Record.optional_ofJson_iff.2 (.inr (hpart "limit" rfl (by simp [known]) (by decide)
      (Source.steady_readOptional Window.steady_read)
      (Source.readOptional_toJson fun w _ => ⟨nofun, w.read_toJson⟩)))
  rw [Option.map_id, id] at hwindow
  rw [List.map_id_fun, Option.map_id, id] at horder
  -- with all other parts read, the statement is read as its condition is
  have hread : Statement.read way st.toJson.toSource
      = (Statement.mk st.distinct st.items st.tables · (st.groups.map (List.map Expr.reread))
          st.order st.window st.extra)
        <$> readOptional (Expr.read inner) st.writtenCondition.toSource := by
    have hrecord : Record.ofJson outline st.toJson
        = .byName (Json.membersToSource (st.known ++ st.extra)) := rfl
    rw [hrecord] at hkind hdistinct hitems htables hcondition hgroups horder hwindow
    refine (Record.readMap_of_frame henter (h.readMembers_toJson hroom)).trans ?_
    rw [hkind, hdistinct, hitems, htables, hcondition, hgroups, horder, hwindow,
      h.extra.others_append st.find?_known]
    cases readOptional (Expr.read inner) st.writtenCondition.toSource <;> rfl
  rw [hread, h.condition_toJson]
  cases st.writtenCondition.toSource.readWhole inner <;> rfl

/-- A tidy statement is read back with the foreign nodes of its conditions taken for what they are. -/
theorem Tidy.read_toJson {st : Statement} (h : st.Tidy) :
    Statement.read .stored st.toJson.toSource = .ok st.reread := by
  have henter : Reading.stored.enter = .ok .stored := rfl
  refine h.read_toJson_of_room henter ?_
  intro name x _ _
  exact Reading.hasRoom_stored x

/-- A settled statement is read back as it is. -/
theorem Settled.read_toJson {st : Statement} (h : st.Settled) :
    Statement.read .stored st.toJson.toSource = .ok st := by
  rw [h.tidy.read_toJson, h.reread_eq]

end Statement

/-! ## Statements that are read -/

/-- A part that is there comes from the value of a field. -/
theorem Record.exists_of_optional {α : Type} {o : Outline} {f : Field} {v : Json}
    {read : Source → Except ReadError α} {a : α} (h : (ofJson o v).optional f read = .ok (some a)) :
    ∃ x, f.of? v = some x ∧ x ≠ .null ∧ read x.toSource = .ok a := by
  rcases optional_ofJson_iff.1 h with ⟨-, hnone, -⟩ | ⟨x, hx, hread⟩
  · cases hnone
  · rcases Source.readOptional_toSource_iff.1 hread with ⟨-, hnone⟩ | ⟨hnull, b, hb, hsome⟩
    · cases hnone
    · obtain rfl := Option.some.inj hsome
      exact ⟨x, hx, hnull, hb⟩

/-- Every item of a list that is read comes from a value. -/
theorem Source.exists_of_readList {α : Type} {read : Reading → Source → Except ReadError α}
    {way : Reading} {v : Json} {values : List α} (h : readList read way v.toSource = .ok values)
    {a : α} (ha : a ∈ values) : ∃ x ∈ v.parts, ∃ inner, read inner x.toSource = .ok a := by
  obtain ⟨items, inner, rfl, -, hitems⟩ := Source.readList_toSource_iff.1 h
  obtain ⟨x, hx, hread⟩ := exists_of_mem_forall₂ hitems ha
  exact ⟨x, hx, inner, hread⟩

/-- A value other than null is read as a condition that is not written as null. -/
theorem Expr.Reads.toJson_ne_null {v : Json} {e : Expr} (h : Reads v e) (hv : v ≠ .null) :
    e.toJson ≠ .null := by
  cases h with
  | column => nofun
  | literal => nofun
  | binary => nofun
  | foreign =>
    intro hnull
    cases v with
    | null => exact hv rfl
    | _ => simp [Expr.toJson, Json.normal] at hnull

namespace Statement

/-- Every statement that is read from a value which names no member twice is settled. -/
theorem settled_of_read {way : Reading} {v : Json} {st : Statement} (hv : v.Distinct)
    (h : Statement.read way v.toSource = .ok st) : st.Settled := by
  obtain ⟨members, fin, inner, hsource, -, -, hdistinct, -, htables, hcondition, hgroups, -, -,
    hextra⟩ := parts_of_read h
  cases v with
  | map ms =>
    obtain ⟨rfl, -⟩ := Source.map.inj hsource
    -- the values of the fields are values inside the map
    have hpart {f : Field} {x : Json} (hx : f.of? (.map ms) = some x) : x.Distinct :=
      hv.of_mem_parts (Field.mem_parts_of_of? hx)
    refine ⟨?_, ?_, ?_, ?_, ?_⟩
    · rcases (Record.withDefault_ofJson_iff (o := outline) (v := .map ms)).1 hdistinct with
        ⟨-, hnull⟩ | ⟨x, -, hread⟩
      · rw [← hnull]
        rfl
      · rw [← (Source.readAny_toSource_iff.1 hread).2]
        exact x.normal_normal
    · intro t ht
      rcases (Record.withDefault_ofJson_iff (o := outline) (v := .map ms)).1 htables with
        ⟨-, hnil⟩ | ⟨x, -, hread⟩
      · rw [← hnil] at ht
        cases ht
      · obtain ⟨tables, hread, htables⟩ := map_eq_ok_iff.1 hread
        rcases Source.readOptional_toSource_iff.1 hread with ⟨-, rfl⟩ | ⟨-, ts, hlist, rfl⟩
        · rw [← htables] at ht
          cases ht
        · obtain rfl : ts = st.tables := htables
          obtain ⟨y, -, inner, hread⟩ := Source.exists_of_readList hlist ht
          exact Table.spares_of_read hread
    · intro e he
      rw [he] at hcondition
      obtain ⟨x, hx, hnull, hread⟩ :=
        Record.exists_of_optional (o := outline) (v := .map ms) hcondition
      obtain ⟨-, hreads⟩ := Expr.read_toSource_iff.1 hread
      exact ⟨hreads.settled (hpart hx), hreads.toJson_ne_null hnull⟩
    · intro es hes e he
      rw [hes] at hgroups
      obtain ⟨x, hx, -, hlist⟩ := Record.exists_of_optional (o := outline) (v := .map ms) hgroups
      obtain ⟨y, hy, inner, hread⟩ := Source.exists_of_readList hlist he
      obtain ⟨-, hreads⟩ := Expr.read_toSource_iff.1 hread
      exact hreads.settled ((hpart hx).of_mem_parts hy)
    · rw [← hextra]
      exact outline.spares_others ms
  | _ => cases hsource

/-! ## Requests -/

/-- A property that conjunctions inherit, and that conditions without foreign nodes have, holds of the
condition of a statement after a request if it held before. -/
theorem condition_apply {P : Expr → Prop} (hplain : ∀ e : Expr, e.Plain → P e)
    (hand : ∀ a b : Expr, P a → P b → P (a.and b)) {st : Statement} {req : Request} {p : Patch}
    (hp : req.patch st = .ok p) (h : ∀ e, st.condition = some e → P e) :
    ∀ e, (p.apply st).condition = some e → P e := by
  obtain ⟨-, -, -, hnew⟩ := Request.patch_eq_ok_iff.1 hp
  intro e he
  cases hc : p.condition with
  | none =>
    have hsame : (p.apply st).condition = st.condition := by
      rw [Patch.apply, hc]
      rfl
    exact h e (hsame ▸ he)
  | some new =>
    rw [hc] at hnew
    have hnew := hplain new (Expr.plain_of_condition? hnew)
    have hmerged : (p.apply st).condition = some (Expr.merge st.condition new) := by
      rw [Patch.apply, hc]
      rfl
    obtain rfl := Option.some.inj (hmerged.symm.trans he)
    cases hold : st.condition with
    | none => exact hnew
    | some old => exact hand old new (h old hold) hnew

/-- What a request writes is settled, so its patch keeps a statement settled. -/
theorem Settled.apply {st : Statement} (h : st.Settled) {req : Request} {p : Patch}
    (hp : req.patch st = .ok p) : (p.apply st).Settled := by
  refine ⟨h.distinct, h.tables, ?_, h.groups, h.extra⟩
  apply condition_apply (P := fun e => e.Settled ∧ e.toJson ≠ .null) _ _ hp h.condition
  · intro e he
    exact ⟨he.settled, he.toJson_ne_null⟩
  -- a conjunction is not written as null
  · intro a b ha hb
    exact ⟨⟨ha.1, hb.1⟩, nofun⟩

/-- Its patch keeps a statement tidy, too. -/
theorem Tidy.apply {st : Statement} (h : st.Tidy) {req : Request} {p : Patch}
    (hp : req.patch st = .ok p) : (p.apply st).Tidy := by
  refine ⟨h.distinct, h.tables, ?_, h.groups, h.extra⟩
  apply condition_apply (P := fun e => e.Tidy ∧ e.toJson ≠ .null) _ _ hp h.condition
  · intro e he
    exact ⟨he.settled.tidy, he.toJson_ne_null⟩
  · intro a b ha hb
    exact ⟨⟨ha.1, hb.1⟩, nofun⟩

theorem Settled.shapeAll (reqs : List Request) :
    ∀ {st : Statement}, st.Settled → (st.shapeAll reqs).Settled := by
  induction reqs with
  | nil => exact fun h => h
  | cons req rest ih =>
    intro st h
    rw [Statement.shapeAll]
    split
    · next st' hok =>
      obtain ⟨p, hp, rfl⟩ := Request.shape_eq_ok_iff.1 hok
      exact ih (h.apply hp)
    · exact ih h

/-! ## There and back -/

/-- Every value is read as a condition. A statement that is read from a value which names no member
twice may be shaped by any requests, accepted or not: what it is written as is read back as the same
statement, with its members in any order, from a text with room for it as well as from a store. For
its foreign nodes are values that no reader of nodes takes, before and after. -/
theorem read_toJson_shapeAll :
    (∀ v : Json, ∃ e, (∀ way : Reading, way.HasRoom v → Expr.read way v.toSource = .ok e) ∧
        (v.Distinct → e.Settled ∧ Expr.read .stored e.toJson.toSource = .ok e)) ∧
      ∀ (v : Json) (way : Reading) (st : Statement), v.Distinct →
        Statement.read way v.toSource = .ok st → ∀ reqs : List Request,
          (∀ e, (st.shapeAll reqs).condition = some e → e.Settled) ∧
            (∀ es, (st.shapeAll reqs).groups = some es → ∀ e ∈ es, e.Settled) ∧
            (st.shapeAll reqs).toJson.Distinct ∧
            ∀ w : Json, (st.shapeAll reqs).toJson.Reordered w → ∀ way' : Reading, way'.HasRoom w →
              Statement.read way' w.toSource = .ok (st.shapeAll reqs) := by
  refine ⟨fun v => ?_, fun v way st hv hread reqs => ?_⟩
  · have hreads := Expr.reads_ofJson v
    refine ⟨Expr.ofJson v, fun way hroom => Expr.read_toSource_iff.2 ⟨hroom, hreads⟩, fun hv => ?_⟩
    have hsettled := hreads.settled hv
    exact ⟨hsettled, hsettled.read_toJson⟩
  · have hsettled := (settled_of_read hv hread).shapeAll reqs
    refine ⟨fun e he => (hsettled.condition e he).1, hsettled.groups,
      hsettled.tidy.distinct_toJson, ?_⟩
    intro w hw way' hroom
    exact steady_read hw (Reading.hasRoom_stored _) hroom _ hsettled.read_toJson

/-- A statement with a call in its condition, and with members that have no meaning here. -/
def carrying : Json :=
  .map [("where", .map [("type", .text "function"), ("name", .text "f")]),
    ("with", .list [.map [("b", .null), ("a", .null)]]), ("type", .text "select"),
    ("from", .list [.map [("table", .text "t"), ("surround", .map [])]])]

/-- Two requests, of which the second is rejected. -/
def oneRejected : List Request :=
  [{ Request.empty with filter := [[⟨.single "a", .equal, .scalar .null⟩]] },
    { Request.empty with filter := [[]] }]

/-- The call stays a call, and the statement is read back from its normal form as a text. -/
theorem read_toJson_shapeAll_carrying :
    ∃ st, Statement.read .stored carrying.toSource = .ok st ∧
      (st.shapeAll oneRejected).condition ≠ none ∧
      Statement.read .whole (st.shapeAll oneRejected).toJson.normal.toSource
        = .ok (st.shapeAll oneRejected) := by
  have hdistinct : carrying.Distinct := by
    simp [carrying, Json.Distinct, Json.DistinctMembers, Json.DistinctItems]
  refine ⟨_, rfl, ?_, ?_⟩
  · intro hnone
    cases hnone
  obtain ⟨-, -, hwritten, hback⟩ := read_toJson_shapeAll.2 carrying .stored _ hdistinct rfl oneRejected
  refine hback _ hwritten.reordered_normal .whole ?_
  show Json.depth _ ≤ 127
  decide

end Statement

end QueryShaping
