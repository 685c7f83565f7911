import Mathlib
import QueryShaping.Proofs.Documents
import QueryShaping.Proofs.Nodes
import QueryShaping.Proofs.Rendered

/-!
# Conditions that are carried along

A document brings its own condition, which is read, joined to the new conditions and written out
again. What is no column, literal or binary operator is carried along as it is. But of those three
only the fields are kept, and their kinds are written as the member `type` whatever stood there
before. So the members of a condition come through if each of its nodes has no others.

## What this module delivers

- `Json.Kept`: that a value is written with all its members, up to the spelling of marks, a table that
  is written as null, and the order of members.
- `Expr.Intact`: that every node of a condition has its type, and no members beside it and its fields.
- `Document.shapeText_kept_iff`: where the condition of a document stands in the shaped statement, and
  that it is kept exactly if it is intact.
-/

set_option autoImplicit false

namespace QueryShaping

/-! ## Values that are kept -/

namespace Json

/-- The mark of a binary operator is written under its first name if it is set, and not at all
otherwise. -/
def Respelt (members : List (String × Json)) (m : String × Json)
    (written : List (String × Json)) : Prop :=
  (Json.map members).Tagged "binary_expr" ∧ Expr.markField.goesBy m.1 = true ∧
    ∃ marked, m.2 = .bool marked ∧
      (written.filter fun n => Expr.markField.goesBy n.1) = Expr.markMember marked

/-- A member may be written that was not there: the table of a column, as null, and the first name of
a mark that is set. -/
def MayAdd (members : List (String × Json)) (n : String × Json) : Prop :=
  (Json.map members).Tagged "column_ref" ∧ n = ("table", .null) ∨
    (Json.map members).Tagged "binary_expr" ∧ n = ("parenthesized", .bool true) ∧
      ∃ name, Expr.markField.goesBy name = true ∧ (name, .bool true) ∈ members

mutual
/-- A value is written as another and nothing of it is lost: every map in it has all its members with
values that are kept, and no others, up to the spelling of marks and a table that is written as
null. -/
def Kept : Json → Json → Prop
  | .list items, w => ∃ written, w = .list written ∧ KeptItems items written
  | .map members, w => ∃ written, w = .map written ∧ (written.map (·.1)).Nodup ∧
      KeptMembers (fun m => Respelt members m written) members written ∧
      ∀ n ∈ written, n.1 ∈ members.map (·.1) ∨ MayAdd members n
  | v, w => v = w
/-- The items of a list are written one by one. -/
def KeptItems : List Json → List Json → Prop
  | [], written => written = []
  | x :: rest, written => ∃ y more, written = y :: more ∧ Kept x y ∧ KeptItems rest more
/-- The members of a map are written under their names, those apart that are spelt anew. -/
def KeptMembers (respelt : String × Json → Prop) :
    List (String × Json) → List (String × Json) → Prop
  | [], _ => True
  | (name, x) :: rest, written =>
    ((∃ y, (name, y) ∈ written ∧ Kept x y) ∨ respelt (name, x)) ∧ KeptMembers respelt rest written
end

theorem kept_list_iff {items : List Json} {w : Json} :
    Kept (.list items) w ↔ ∃ written, w = .list written ∧ List.Forall₂ Kept items written := by
  have hitems : ∀ (xs ys : List Json), KeptItems xs ys ↔ List.Forall₂ Kept xs ys := by
    intro xs
    induction xs with
    | nil =>
      intro ys
      rw [KeptItems, List.forall₂_nil_left_iff]
    | cons x rest ih =>
      intro ys
      rw [KeptItems, List.forall₂_cons_left_iff]
      simp only [ih]
      constructor
      · rintro ⟨y, more, rfl, hx, hrest⟩
        exact ⟨y, more, hx, hrest, rfl⟩
      · rintro ⟨y, more, hx, hrest, rfl⟩
        exact ⟨y, more, rfl, hx, hrest⟩
  rw [Kept]
  simp only [hitems]

theorem kept_map_iff {members : List (String × Json)} {w : Json} :
    Kept (.map members) w ↔
      ∃ written, w = .map written ∧ (written.map (·.1)).Nodup ∧
        (∀ m ∈ members, (∃ y, (m.1, y) ∈ written ∧ Kept m.2 y) ∨ Respelt members m written) ∧
        ∀ n ∈ written, n.1 ∈ members.map (·.1) ∨ MayAdd members n := by
  have hmembers : ∀ (respelt : String × Json → Prop) (written todo : List (String × Json)),
      KeptMembers respelt todo written ↔
        ∀ m ∈ todo, (∃ y, (m.1, y) ∈ written ∧ Kept m.2 y) ∨ respelt m := by
    intro respelt written todo
    induction todo with
    | nil => simp [KeptMembers]
    | cons m rest ih => rw [KeptMembers, ih, List.forall_mem_cons]
  rw [Kept]
  simp only [hmembers]

/-- A value that is no list or map is only kept as itself. -/
theorem kept_iff_eq {v w : Json} (hlist : ∀ items, w ≠ .list items)
    (hmap : ∀ members, w ≠ .map members) : Kept v w ↔ v = w := by
  cases v with
  | list items =>
    refine iff_of_false ?_ fun h => hlist _ h.symm
    rintro ⟨written, rfl, -⟩
    exact hlist _ rfl
  | map members =>
    refine iff_of_false ?_ fun h => hmap _ h.symm
    rintro ⟨written, rfl, -⟩
    exact hmap _ rfl
  | _ => exact Iff.rfl

/-- Only a map is written as a map. -/
theorem kept_written_iff {v : Json} {written : List (String × Json)}
    {P : List (String × Json) → Prop}
    (h : ∀ members, v = .map members → (Kept (.map members) (.map written) ↔ P members)) :
    Kept v (.map written) ↔ ∃ members, v = .map members ∧ P members := by
  constructor
  · intro hkept
    cases v with
    | map members => exact ⟨members, rfl, (h members rfl).1 hkept⟩
    | list items =>
      obtain ⟨_, heq, -⟩ := kept_list_iff.1 hkept
      cases heq
    | _ => cases hkept
  · rintro ⟨members, rfl, hP⟩
    exact (h members rfl).2 hP

theorem kept_text_iff {v : Json} {s : String} : Kept v (.text s) ↔ v = .text s :=
  kept_iff_eq (fun _ => Json.noConfusion) fun _ => Json.noConfusion

/-- Normal form keeps a value that names no member twice. -/
theorem kept_normal (v : Json) (hv : v.Distinct) : Kept v v.normal := by
  induction v using Json.induction with
  | list items ih =>
    rw [distinct_list_iff] at hv
    rw [kept_list_iff, normal, normalItems_eq_map]
    refine ⟨_, rfl, List.forall₂_map_right_iff.2 (List.forall₂_same.2 fun x hx => ?_)⟩
    exact ih x hx (hv x hx)
  | map members ih =>
    obtain ⟨hnames, hmembers⟩ := (distinct_map_iff members).1 hv
    have hnames' : ((normalMembers members).map (·.1)).Nodup := by
      rw [normalMembers_eq_map, List.map_map]
      exact hnames
    -- the members change their places only, so each is found again under its name
    have hperm := ofMembers_perm hnames'
    rw [kept_map_iff, normal]
    refine ⟨_, rfl, (hperm.map _).nodup_iff.2 hnames', fun m hm => Or.inl ⟨m.2.normal, ?_, ?_⟩,
      fun n hn => Or.inl ?_⟩
    · rw [hperm.mem_iff, normalMembers_eq_map]
      exact List.mem_map_of_mem (f := fun m : String × Json => (m.1, m.2.normal)) hm
    · exact ih m hm (hmembers m hm)
    · rw [hperm.mem_iff, normalMembers_eq_map] at hn
      obtain ⟨m, hm, rfl⟩ := List.mem_map.1 hn
      exact List.mem_map.2 ⟨m, hm, rfl⟩
  | _ => rfl

section Members

variable {members written : List (String × Json)}

/-- Most members that are written were there before. -/
theorem Kept.exists_mem (h : Kept (.map members) (.map written)) {name : String} {y : Json}
    (hmem : (name, y) ∈ written) (htable : name ≠ "table")
    (hmark : Expr.markField.goesBy name = false) : ∃ x, (name, x) ∈ members ∧ Kept x y := by
  obtain ⟨_, heq, hnodup, hkept, hadd⟩ := kept_map_iff.1 h
  cases heq
  -- only a table and a mark may be written that were not there
  have hname : name ∈ members.map (·.1) := by
    rcases hadd _ hmem with hname | ⟨-, hn⟩ | ⟨-, hn, -⟩
    · exact hname
    · exact absurd (Prod.mk.inj hn).1 htable
    · obtain ⟨rfl, -⟩ := Prod.mk.inj hn
      cases hmark
  obtain ⟨⟨_, x⟩, hx, rfl⟩ := List.mem_map.1 hname
  rcases hkept _ hx with ⟨z, hz, hxz⟩ | ⟨-, hgoes, -⟩
  · have hpair := List.inj_on_of_nodup_map hnodup hz hmem rfl
    exact ⟨x, hx, (Prod.mk.inj hpair).2 ▸ hxz⟩
  · cases hmark.symm.trans hgoes

theorem Kept.tagged (h : Kept (.map members) (.map written)) {name : String}
    (hmem : ("type", .text name) ∈ written) : (Json.map members).Tagged name := by
  obtain ⟨x, hx, hkept⟩ := h.exists_mem hmem (by decide) (by decide)
  rw [tagged_map_iff, ← kept_text_iff.1 hkept]
  exact hx

/-- Members that are not written are marks of a binary operator. -/
theorem Kept.name_mem (h : Kept (.map members) (.map written)) {m : String × Json}
    (hm : m ∈ members) :
    m.1 ∈ written.map (·.1) ∨
      (Json.map members).Tagged "binary_expr" ∧ Expr.markField.goesBy m.1 = true := by
  obtain ⟨_, heq, -, hkept, -⟩ := kept_map_iff.1 h
  cases heq
  rcases hkept m hm with ⟨y, hy, -⟩ | ⟨htag, hgoes, -⟩
  · exact Or.inl (List.mem_map.2 ⟨_, hy, rfl⟩)
  · exact Or.inr ⟨htag, hgoes⟩

theorem Distinct.eq_of_mem (h : (Json.map members).Distinct) {name : String} {x y : Json}
    (hx : (name, x) ∈ members) (hy : (name, y) ∈ members) : x = y := by
  have hpair := List.inj_on_of_nodup_map ((distinct_map_iff members).1 h).1 hx hy rfl
  exact (Prod.mk.inj hpair).2

end Members

end Json

/-! ## Nodes -/

/-- The members of a map are the type of the node and its fields, and nothing else. -/
def Outline.Covers (o : Outline) (members : List (String × Json)) : Prop :=
  ∀ m ∈ members, m.1 = "type" ∨ ∃ f ∈ o.fields, f.goesBy m.1 = true

instance (o : Outline) (members : List (String × Json)) : Decidable (o.Covers members) :=
  inferInstanceAs (Decidable (∀ m ∈ members, m.1 = "type" ∨ ∃ f ∈ o.fields, f.goesBy m.1 = true))

section Nodes

open Json

variable {members written : List (String × Json)}

/-- If only the type and fields of a node are written, and all its members are kept, then it has no
other members. -/
theorem Json.Kept.covers {o : Outline} (h : Kept (.map members) (.map written))
    (hwritten : o.Covers written)
    (hmark : (Json.map members).Tagged "binary_expr" → Expr.markField ∈ o.fields) :
    o.Covers members := by
  intro m hm
  rcases h.name_mem hm with hmem | ⟨hbinary, hgoes⟩
  · obtain ⟨n, hn, hname⟩ := List.mem_map.1 hmem
    rw [← hname]
    exact hwritten n hn
  · exact Or.inr ⟨Expr.markField, hmark hbinary, hgoes⟩

/-- A node is kept if its type is written, and each of its fields is kept or spelt anew. -/
theorem Json.kept_of_covers {o : Outline} {kind : String} (hd : (Json.map members).Distinct)
    (htag : (Json.map members).Tagged kind) (hcovers : o.Covers members)
    (hkind : ("type", .text kind) ∈ written) (hnodup : (written.map (·.1)).Nodup)
    (hfields : ∀ f ∈ o.fields, ∀ name x, f.goesBy name = true → (name, x) ∈ members →
      (∃ y, (name, y) ∈ written ∧ Kept x y) ∨ Respelt members (name, x) written)
    (hadd : ∀ n ∈ written, n.1 = "type" ∨ n.1 ∈ members.map (·.1) ∨ MayAdd members n) :
    Kept (.map members) (.map written) := by
  have htype := tagged_map_iff.1 htag
  refine kept_map_iff.2 ⟨written, rfl, hnodup, ?_, ?_⟩
  · rintro ⟨name, x⟩ hm
    rcases hcovers _ hm with hname | ⟨f, hf, hgoes⟩
    · -- the type occurs once, so it is the one that is written
      cases hname
      rw [hd.eq_of_mem hm htype]
      exact Or.inl ⟨_, hkind, kept_text_iff.2 rfl⟩
    · exact hfields f hf name x hgoes hm
  · intro n hn
    rcases hadd n hn with hname | hother
    · exact Or.inl (List.mem_map.2 ⟨_, htype, hname.symm⟩)
    · exact hother

theorem Json.kept_ofText? (s : Option String) : Kept (.ofText? s) (.ofText? s) := by
  cases s <;> rfl

theorem Column.kept_iff {c : Column} (hd : (Json.map members).Distinct)
    (hc : Column.Fields (.map members) c) :
    Kept (.map members) c.toJson ↔
      (Json.map members).Tagged "column_ref" ∧ Column.outline.Covers members := by
  have htableField : tableField ∈ outline.fields := List.mem_cons_self
  obtain ⟨hfits, htable, hname⟩ := hc
  have hname := (hfits.named_of?_eq_some_iff (List.mem_cons_of_mem _ List.mem_cons_self)).1 hname
  constructor
  · intro h
    have htag : (Json.map members).Tagged "column_ref" := h.tagged List.mem_cons_self
    refine ⟨htag, h.covers ?_ fun hbinary => ?_⟩
    · simp [Outline.Covers, outline, Outline.record, tableField, nameField,
        Field.named_goesBy_iff]
    · -- a column is no binary operator, so nothing is a mark
      exact absurd (htag.unique hd hbinary) (by decide)
  · rintro ⟨htag, hcovers⟩
    refine kept_of_covers hd htag hcovers List.mem_cons_self (by simp) ?_ ?_
    · intro f hf name x hgoes hm
      simp only [outline, Outline.record, List.mem_cons, List.not_mem_nil, or_false] at hf
      rcases hf with rfl | rfl
      · cases Field.named_goesBy_iff.1 hgoes
        have hx : tableField.of? (.map members) = some x :=
          (hfits.named_of?_eq_some_iff htableField).2 hm
        rw [hx, Option.getD_some] at htable
        rw [htable]
        exact Or.inl ⟨_, by simp, kept_ofText? _⟩
      · cases Field.named_goesBy_iff.1 hgoes
        rw [hd.eq_of_mem hm hname]
        exact Or.inl ⟨_, by simp, kept_text_iff.2 rfl⟩
    · intro n hn
      simp only [List.mem_cons, List.not_mem_nil, or_false] at hn
      rcases hn with rfl | rfl | rfl
      · exact Or.inl rfl
      · refine Or.inr ?_
        cases hx : tableField.of? (.map members) with
        | none =>
          -- a table that is not there is written as null
          rw [hx, Option.getD_none] at htable
          exact Or.inr (Or.inl ⟨htag, by rw [htable]⟩)
        | some x =>
          have hmem := (hfits.named_of?_eq_some_iff htableField).1 hx
          exact Or.inl (List.mem_map.2 ⟨_, hmem, rfl⟩)
      · exact Or.inr (Or.inl (List.mem_map.2 ⟨_, hname, rfl⟩))

theorem Literal.kept_value_iff {v : Json} {l : Literal} : Kept v l.value ↔ v = l.value := by
  cases l <;> exact kept_iff_eq (fun _ => Json.noConfusion) fun _ => Json.noConfusion

theorem Literal.kept_iff {l : Literal} (hd : (Json.map members).Distinct) :
    Kept (.map members) l.toJson ↔
      (Json.map members).Tagged l.kind.name ∧ ("value", l.value) ∈ members ∧
        Literal.outline.Covers members := by
  constructor
  · intro h
    have htag : (Json.map members).Tagged l.kind.name := h.tagged List.mem_cons_self
    obtain ⟨x, hx, hkept⟩ := h.exists_mem (List.mem_cons_of_mem _ List.mem_cons_self) (by decide)
      (by decide)
    obtain rfl := kept_value_iff.1 hkept
    refine ⟨htag, hx, h.covers ?_ fun hbinary => ?_⟩
    · simp [Outline.Covers, outline, Outline.record, kindField, valueField, Field.named_goesBy_iff]
    · have hname := htag.unique hd hbinary
      cases l <;> simp [kind, Kind.name] at hname
  · rintro ⟨htag, hvalue, hcovers⟩
    refine kept_of_covers hd htag hcovers List.mem_cons_self (by simp) ?_ ?_
    · intro f hf name x hgoes hm
      simp only [outline, Outline.record, List.mem_cons, List.not_mem_nil, or_false] at hf
      rcases hf with rfl | rfl
      · cases Field.named_goesBy_iff.1 hgoes
        rw [hd.eq_of_mem hm (tagged_map_iff.1 htag)]
        exact Or.inl ⟨_, List.mem_cons_self, kept_text_iff.2 rfl⟩
      · cases Field.named_goesBy_iff.1 hgoes
        rw [hd.eq_of_mem hm hvalue]
        exact Or.inl ⟨_, List.mem_cons_of_mem _ List.mem_cons_self, kept_value_iff.2 rfl⟩
    · intro n hn
      simp only [List.mem_cons, List.not_mem_nil, or_false] at hn
      rcases hn with rfl | rfl
      · exact Or.inl rfl
      · exact Or.inr (Or.inl (List.mem_map.2 ⟨_, hvalue, rfl⟩))

theorem Expr.filter_markMember (marked : Bool) :
    ((markMember marked).filter fun n => markField.goesBy n.1) = markMember marked := by
  cases marked <;> rfl

theorem Expr.covers_binary (op : Operator) (left right : Json) (marked : Bool) :
    binaryOutline.Covers ([("type", .text "binary_expr"), ("operator", .text op.text),
      ("left", left), ("right", right)] ++ markMember marked) := by
  cases marked <;>
    simp [Outline.Covers, markMember, binaryOutline, Outline.record, operatorField, leftField,
      rightField, markField, Field.goesBy_iff, Field.named]

theorem Expr.kept_binary_iff {op : Operator} {x y : Json} {marked : Bool} {left right : Expr}
    (hd : (Json.map members).Distinct) (hb : BinaryFields (.map members) op x y marked) :
    Kept (.map members) (Expr.binary op left right marked).toJson ↔
      (Json.map members).Tagged "binary_expr" ∧ ("operator", .text op.text) ∈ members ∧
        binaryOutline.Covers members ∧ Kept x left.toJson ∧ Kept y right.toJson := by
  obtain ⟨hfits, -, hx, hy, hmark⟩ := hb
  have hx := (hfits.named_of?_eq_some_iff (List.mem_cons_of_mem _ List.mem_cons_self)).1 hx
  have hy := (hfits.named_of?_eq_some_iff
    (List.mem_cons_of_mem _ (List.mem_cons_of_mem _ List.mem_cons_self))).1 hy
  have hmarkField : markField ∈ binaryOutline.fields := by simp [binaryOutline, Outline.record]
  constructor
  · intro h
    have htag : (Json.map members).Tagged "binary_expr" := h.tagged List.mem_cons_self
    obtain ⟨z, hz, hop⟩ := h.exists_mem (List.mem_cons_of_mem _ List.mem_cons_self) (by decide)
      (by decide)
    obtain ⟨x', hx', hleft⟩ := h.exists_mem
      (List.mem_cons_of_mem _ (List.mem_cons_of_mem _ List.mem_cons_self)) (by decide) (by decide)
    obtain ⟨y', hy', hright⟩ := h.exists_mem
      (List.mem_cons_of_mem _ (List.mem_cons_of_mem _ (List.mem_cons_of_mem _ List.mem_cons_self)))
      (by decide) (by decide)
    -- every name occurs once, so these are the members that were read
    rw [kept_text_iff.1 hop] at hz
    rw [hd.eq_of_mem hx' hx] at hleft
    rw [hd.eq_of_mem hy' hy] at hright
    exact ⟨htag, hz, h.covers (covers_binary op _ _ marked) fun _ => hmarkField, hleft, hright⟩
  · rintro ⟨htag, hop, hcovers, hleft, hright⟩
    refine kept_of_covers hd htag hcovers List.mem_cons_self
      (by cases marked <;> simp [markMember]) ?_ ?_
    · intro f hf name z hgoes hm
      simp only [binaryOutline, Outline.record, List.mem_cons, List.not_mem_nil, or_false] at hf
      rcases hf with rfl | rfl | rfl | rfl
      · cases Field.named_goesBy_iff.1 hgoes
        rw [hd.eq_of_mem hm hop]
        exact Or.inl ⟨_, by simp, kept_text_iff.2 rfl⟩
      · cases Field.named_goesBy_iff.1 hgoes
        rw [hd.eq_of_mem hm hx]
        exact Or.inl ⟨_, by simp, hleft⟩
      · cases Field.named_goesBy_iff.1 hgoes
        rw [hd.eq_of_mem hm hy]
        exact Or.inl ⟨_, by simp, hright⟩
      · -- whatever its name, the mark is written under its first name or not at all
        have hz := (hfits.of?_eq_some_iff hmarkField).2 ⟨name, hgoes, hm⟩
        rw [hz, Option.getD_some] at hmark
        exact Or.inr ⟨htag, hgoes, marked, hmark, filter_markMember marked⟩
    · intro n hn
      simp only [List.cons_append, List.nil_append, List.mem_cons] at hn
      rcases hn with rfl | rfl | rfl | rfl | hn
      · exact Or.inl rfl
      · exact Or.inr (Or.inl (List.mem_map.2 ⟨_, hop, rfl⟩))
      · exact Or.inr (Or.inl (List.mem_map.2 ⟨_, hx, rfl⟩))
      · exact Or.inr (Or.inl (List.mem_map.2 ⟨_, hy, rfl⟩))
      · cases marked with
        | false => cases hn
        | true =>
          cases List.mem_singleton.1 hn
          -- the mark is set, so some member of one of its names is true
          have hz : markField.of? (.map members) = some (.bool true) := by
            cases hz : markField.of? (.map members) with
            | none =>
              rw [hz] at hmark
              cases hmark
            | some z =>
              rw [hz, Option.getD_some] at hmark
              rw [hmark]
          exact Or.inr (Or.inr (Or.inr
            ⟨htag, rfl, (hfits.of?_eq_some_iff hmarkField).1 hz⟩))

end Nodes

/-! ## Whole conditions -/

namespace Expr

open Json

/-- A node that has the fields of a column, a literal or a binary operator is a map that has its type
and no members beside it and the fields; kinds and operators are written as texts, a literal has its
value, and the operands are intact. -/
inductive Intact : Json → Prop where
  | column {members : List (String × Json)} {c : Column} : Column.Fields (.map members) c →
      (Json.map members).Tagged "column_ref" → Column.outline.Covers members →
      Intact (.map members)
  | literal {members : List (String × Json)} {l : Literal} :
      (∀ c, ¬ Column.Fields (.map members) c) → Literal.Fields (.map members) l →
      (Json.map members).Tagged l.kind.name → ("value", l.value) ∈ members →
      Literal.outline.Covers members → Intact (.map members)
  | binary {members : List (String × Json)} {op : Operator} {x y : Json} {marked : Bool} :
      (∀ c, ¬ Column.Fields (.map members) c) → (∀ l, ¬ Literal.Fields (.map members) l) →
      BinaryFields (.map members) op x y marked → (Json.map members).Tagged "binary_expr" →
      ("operator", .text op.text) ∈ members → binaryOutline.Covers members →
      Intact x → Intact y → Intact (.map members)
  | foreign {v : Json} : (∀ c, ¬ Column.Fields v c) → (∀ l, ¬ Literal.Fields v l) →
      (∀ op x y marked, ¬ BinaryFields v op x y marked) → Intact v

theorem intact_column_iff {v : Json} {c : Column} (hc : Column.Fields v c) :
    Intact v ↔ ∃ members, v = .map members ∧ (Json.map members).Tagged "column_ref" ∧
      Column.outline.Covers members := by
  constructor
  · intro h
    cases h with
    | column _ htag hcovers => exact ⟨_, rfl, htag, hcovers⟩
    | literal hn => exact absurd hc (hn c)
    | binary hn => exact absurd hc (hn c)
    | foreign hn => exact absurd hc (hn c)
  · rintro ⟨members, rfl, htag, hcovers⟩
    exact .column hc htag hcovers

theorem intact_literal_iff {v : Json} {l : Literal} (hn : ∀ c, ¬ Column.Fields v c)
    (hl : Literal.Fields v l) :
    Intact v ↔ ∃ members, v = .map members ∧ (Json.map members).Tagged l.kind.name ∧
      ("value", l.value) ∈ members ∧ Literal.outline.Covers members := by
  constructor
  · intro h
    cases h with
    | column hc => exact absurd hc (hn _)
    | literal _ hl' htag hvalue hcovers =>
      obtain rfl := Literal.fields_unique hl hl'
      exact ⟨_, rfl, htag, hvalue, hcovers⟩
    | binary _ hn' => exact absurd hl (hn' l)
    | foreign _ hn' => exact absurd hl (hn' l)
  · rintro ⟨members, rfl, htag, hvalue, hcovers⟩
    exact .literal hn hl htag hvalue hcovers

theorem intact_binary_iff {v x y : Json} {op : Operator} {marked : Bool}
    (hn : ∀ c, ¬ Column.Fields v c) (hnl : ∀ l, ¬ Literal.Fields v l)
    (hb : BinaryFields v op x y marked) :
    Intact v ↔ ∃ members, v = .map members ∧ (Json.map members).Tagged "binary_expr" ∧
      ("operator", .text op.text) ∈ members ∧ binaryOutline.Covers members ∧
      Intact x ∧ Intact y := by
  constructor
  · intro h
    cases h with
    | column hc => exact absurd hc (hn _)
    | literal _ hl => exact absurd hl (hnl _)
    | binary _ _ hb' htag hop hcovers hx hy =>
      obtain ⟨rfl, rfl, rfl, -⟩ := binaryFields_unique hb hb'
      exact ⟨_, rfl, htag, hop, hcovers, hx, hy⟩
    | foreign _ _ hn' => exact absurd hb (hn' _ _ _ _)
  · rintro ⟨members, rfl, htag, hop, hcovers, hx, hy⟩
    exact .binary hn hnl hb htag hop hcovers hx hy

/-- A condition that names no member twice is kept by reading it and writing it back exactly if it is
intact. -/
theorem Reads.kept_iff {v : Json} {e : Expr} (h : Reads v e) (hd : v.Distinct) :
    Kept v e.toJson ↔ Intact v := by
  induction h with
  | column hc =>
    rw [intact_column_iff hc]
    refine kept_written_iff fun members hv => ?_
    subst hv
    exact Column.kept_iff hd hc
  | literal hn hl =>
    rw [intact_literal_iff hn hl]
    refine kept_written_iff fun members hv => ?_
    subst hv
    exact Literal.kept_iff hd
  | binary hn hnl hb _ _ ihx ihy =>
    -- the operands are values inside the node, so they name no member twice either
    obtain ⟨-, -, hx, hy, -⟩ := id hb
    rw [intact_binary_iff hn hnl hb, ← ihx (hd.of_mem_parts (Field.mem_parts_of_of? hx)),
      ← ihy (hd.of_mem_parts (Field.mem_parts_of_of? hy))]
    refine kept_written_iff fun members hv => ?_
    subst hv
    exact kept_binary_iff hd hb
  | foreign hn hnl hnb => exact iff_of_true (kept_normal _ hd) (.foreign hn hnl hnb)

end Expr

/-! ## Documents -/

theorem Statement.member?_where_toJson (st : Statement) :
    st.toJson.member? "where" = some ((st.condition.map Expr.toJson).getD .null) := rfl

namespace Document

open Json

/-- The condition that an accepted document brings is the condition of the shaped statement, or the
left operand of its conjunction with the condition of the request. In there it is kept exactly if it
is intact. -/
theorem shapeText_kept_iff {pretty : Bool} {s out : String} {cond : Source}
    (h : shapeText pretty s = .ok out) (hcond : conditionOf? s = some cond)
    (hnull : cond ≠ .atom .null) :
    ∃ (v : Json) (e : Expr) (d : Document) (p : Patch),
      cond = v.toSource ∧ Expr.Reads v e ∧
      ofText s = .ok d ∧ d.request.patch d.statement = .ok p ∧
      out = text pretty (p.apply d.statement) ∧
      (p.condition = none →
        (p.apply d.statement).toJson.member? "where" = some e.toJson) ∧
      (∀ new, p.condition = some new →
        (p.apply d.statement).toJson.member? "where" = some
          (.map [("type", .text "binary_expr"), ("operator", .text "AND"), ("left", e.toJson),
            ("right", new.toJson)])) ∧
      (v.Distinct → (Kept v e.toJson ↔ Expr.Intact v)) := by
  obtain ⟨d, p, hd, hp, rfl⟩ := shapeText_eq_ok_iff.1 h
  obtain ⟨v, rfl, he⟩ := exists_condition hd hcond hnull
  have hreads := Expr.reads_ofJson v
  -- the condition is read as any value is, so what is known of values holds of it
  refine ⟨v, Expr.ofJson v, d, p, rfl, hreads, hd, hp, rfl, ?_, ?_, hreads.kept_iff⟩
  · intro hnone
    rw [Statement.member?_where_toJson, Patch.apply, hnone, he]
    rfl
  · intro new hnew
    rw [Statement.member?_where_toJson, Patch.apply, hnew, he]
    rfl

section Witness

open QueryShaping.Expr (comparedOrCalled comparedColumn callOfNow comparisonOrCall)

/-- A column without a table that is compared with a number is intact. -/
theorem intact_comparedColumn : Expr.Intact comparedColumn := by
  let column : Json := .map [("type", .text "column_ref"), ("column", .text "x")]
  let one : Json := .map [("type", .text "number"), ("value", .number (.int (.ofUInt64 1)))]
  have hcolumn : Expr.Intact column := by
    cases Expr.reads_ofJson column with
    | column hc => exact .column hc (tagged_map_iff.2 List.mem_cons_self) (by decide)
  have hone : Expr.Intact one := by
    cases Expr.reads_ofJson one with
    | literal hn hl =>
      exact .literal hn hl (tagged_map_iff.2 List.mem_cons_self)
        (List.mem_cons_of_mem _ List.mem_cons_self) (by decide)
  cases Expr.reads_ofJson comparedColumn with
  | binary hn hnl hb =>
    obtain ⟨-, -, hleft, hright, -⟩ := id hb
    obtain rfl := Option.some.inj (hleft.symm.trans (rfl : _ = some column))
    obtain rfl := Option.some.inj (hright.symm.trans (rfl : _ = some one))
    exact .binary hn hnl hb (tagged_map_iff.2 List.mem_cons_self)
      (List.mem_cons_of_mem _ List.mem_cons_self) (by decide) hcolumn hone

/-- So is its marked disjunction with a call. -/
theorem intact_comparedOrCalled : Expr.Intact comparedOrCalled := by
  have hcall : Expr.Intact callOfNow := by
    cases Expr.reads_ofJson callOfNow with
    | foreign hn hnl hnb => exact .foreign hn hnl hnb
  cases Expr.reads_ofJson comparedOrCalled with
  | binary hn hnl hb =>
    obtain ⟨-, -, hleft, hright, -⟩ := id hb
    obtain rfl := Option.some.inj (hleft.symm.trans (rfl : _ = some comparedColumn))
    obtain rfl := Option.some.inj (hright.symm.trans (rfl : _ = some callOfNow))
    exact .binary hn hnl hb (tagged_map_iff.2 List.mem_cons_self)
      (List.mem_cons_of_mem _ List.mem_cons_self) (by decide) intact_comparedColumn hcall

/-- A document with the disjunction as its condition and with a filter. -/
def filteredDisjunction : Json :=
  .map [("queryAST", .map [("type", .text "select"), ("where", comparedOrCalled)]),
    ("filter", .list [.list [.map [("attribute", .text "a"), ("operator", .text "equal"),
      ("value", .null)]]])]

/-- The disjunction is kept to the left of the test that the filter brings: its mark is spelt anew, the
table of the column is written as null, and nothing is lost. -/
theorem shapeText_kept_iff_filteredDisjunction :
    ∃ st : Statement,
      shapeText false filteredDisjunction.compact = .ok (text false st) ∧
      st.toJson.member? "where" = some (.map [("type", .text "binary_expr"),
        ("operator", .text "AND"), ("left", comparisonOrCall.toJson),
        ("right", (Expr.compare .is (.column ⟨none, "a"⟩) (.literal .null)).toJson)]) ∧
      Kept comparedOrCalled comparisonOrCall.toJson := by
  have hdistinct : comparedOrCalled.Distinct := by
    simp [comparedOrCalled, comparedColumn, callOfNow, Distinct, DistinctMembers, DistinctItems]
  have hsource := @Source.ofChars_compact filteredDisjunction (by decide)
  have hread : ofText filteredDisjunction.compact = .ok
      ⟨{ Request.empty with filter := [[⟨.single "a", .equal, .scalar .null⟩]] },
        { Statement.empty with condition := some comparisonOrCall }⟩ :=
    ofText_of_ofChars hsource rfl
  have hout := shapeText_eq_ok_iff.2 ⟨_, _, hread, rfl, (rfl : text false _ = _)⟩
  have hcond : conditionOf? filteredDisjunction.compact = some comparedOrCalled.toSource := by
    rw [conditionOf?, hsource]
    rfl
  obtain ⟨v, e, d, p, hv, hreads, hd, hp, -, -, hjoined, hkept⟩ :=
    shapeText_kept_iff hout hcond Source.noConfusion
  obtain rfl := toSource_inj _ _ hv
  obtain rfl : comparisonOrCall = e := Expr.reads_iff.1 hreads
  obtain rfl := Except.ok.inj (hread.symm.trans hd)
  obtain rfl := Except.ok.inj hp
  exact ⟨_, hout, hjoined _ rfl, (hkept hdistinct).2 intact_comparedOrCalled⟩

end Witness

/-- A column with a collation, and a document with it. -/
def collatedColumn : Json :=
  .map [("type", .text "column_ref"), ("table", .text "t"), ("column", .text "c"),
    ("collate", .text "utf8_bin")]

def collatedColumnText : String :=
  "\x7b\"queryAST\":\x7b\"type\":\"select\",\"columns\":[]," ++
    "\"from\":[\x7b\"db\":null,\"table\":\"t\",\"as\":null\x7d],\"where\":" ++
    "\x7b\"type\":\"column_ref\",\"table\":\"t\",\"column\":\"c\"," ++
    "\"collate\":\"utf8_bin\"\x7d\x7d\x7d"

/-- The text is that of this value. -/
def collatedSelect : Json :=
  .map [("queryAST", .map [("type", .text "select"), ("columns", .list []),
    ("from", .list [.map [("db", .null), ("table", .text "t"), ("as", .null)]]),
    ("where", collatedColumn)])]

theorem compact_collatedSelect : collatedColumnText = collatedSelect.compact := by
  decide +kernel

/-- The collation of a column is lost, though the request asks for nothing. -/
theorem shapeText_collatedColumn :
    conditionOf? collatedColumnText = some collatedColumn.toSource ∧ collatedColumn.Distinct ∧
      shapeText false collatedColumnText = .ok
        ("\x7b\"type\":\"select\",\"distinct\":null,\"columns\":[]," ++
          "\"from\":[\x7b\"db\":null,\"table\":\"t\",\"as\":null\x7d],\"where\":" ++
          "\x7b\"type\":\"column_ref\",\"table\":\"t\",\"column\":\"c\"\x7d," ++
          "\"groupby\":null,\"orderby\":null,\"limit\":null\x7d") ∧
      ¬ Kept collatedColumn (Expr.column ⟨some "t", "c"⟩).toJson := by
  have hdistinct : collatedColumn.Distinct := by
    simp [collatedColumn, distinct_map_iff, Distinct]
  have hsource := @Source.ofChars_compact collatedSelect (by decide)
  have hd : ofText collatedSelect.compact = .ok ⟨.empty, { Statement.ofTable (.named "t" none) with
      condition := some (.column ⟨some "t", "c"⟩) }⟩ := ofText_of_ofChars hsource rfl
  have hout := shapeText_eq_ok_iff.2 ⟨_, _, hd, rfl, (rfl : text false _ = _)⟩
  rw [compact_collatedSelect]
  refine ⟨?_, hdistinct, hout.trans (congrArg Except.ok (by decide +kernel)), fun hkept => ?_⟩
  · rw [conditionOf?, hsource]
    rfl
  -- a column that is kept has no other members, but this one has a collation
  obtain ⟨-, hcovers⟩ := (Column.kept_iff hdistinct (Column.read_iff.1 rfl)).1 hkept
  have hcollate := hcovers ("collate", .text "utf8_bin") (by simp)
  revert hcollate
  decide

end Document

end QueryShaping
