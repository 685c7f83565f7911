import QueryShaping.Proofs.Faithful
import QueryShaping.Proofs.Restored

/-!
# Literals and the types that they name

An object that names the type of a literal is one only if its value is of that type. A number and a
text are held to this, and an object that claims to be one without being it is kept as it is. With a
null it is otherwise: any value is let pass there, and it is gone when the literal is written back.

## What this module delivers

- `Literal.payload`, `Literal.Kind.Holds`: the value that an object gives, and the values of a kind.
- `Literal.read_toSource_iff`: a text is read as a literal exactly if its value has the fields of one.
- `Literal.fields_map_iff`: which literal an object is, by its type and its value.
- `Literal.read_kind_iff`: an object is read as a literal exactly if its value is of the kind that it
  names, except for nulls, and what is refused is kept.
- `Literal.read_nullWithValue`: a value that is lost.
-/

set_option autoImplicit false

namespace QueryShaping

namespace Literal

/-! ## Reading literals -/

/-- Where there is room a value is read as a literal exactly if it has the fields of one. -/
theorem read_toSource_iff {way : Reading} {v : Json} {l : Literal} (hroom : way.HasRoom v) :
    read way v.toSource = .ok l ↔ Fields v l := by
  rw [← read_iff, read, read, bind_eq_ok_iff, bind_eq_ok_iff]
  refine exists_congr fun found => and_congr_left fun _ => ?_
  rw [Record.read_toSource_iff outline_separate hroom,
    Record.read_toSource_iff outline_separate (Reading.hasRoom_stored v)]
  refine and_congr_right fun hfits => ?_
  obtain ⟨inner, henter, hin⟩ := hroom.enter hfits.depth_pos
  have hstored : Reading.stored.enter = .ok .stored := rfl
  simp only [henter, hstored, Except.ok.injEq, exists_eq_left', Placed.seq_eq_ok_iff,
    Placed.map_eq_ok_iff, Record.required_ofJson_iff, Record.withDefault_ofJson_iff]
  -- there is room for the values of both fields too
  refine exists_congr fun g => exists_congr fun value => and_congr ?_ (and_congr_left' ?_)
  · refine exists_congr fun kind => and_congr_left' (exists_congr fun x => ?_)
    exact and_congr_right fun hx => Source.readChoice_toSource (hin x (Field.mem_parts_of_of? hx))
  · refine or_congr_right (exists_congr fun x => and_congr_right fun hx => ?_)
    rw [Source.readAny_toSource_iff, Source.readAny_toSource_iff,
      and_iff_right (hin x (Field.mem_parts_of_of? hx)), and_iff_right (Reading.hasRoom_stored x)]

/-! ## Types and values -/

/-- The value that an object gives: that of its member `value`, and null where it has none. -/
def payload (v : Json) : Json := (v.member? "value").getD .null

/-- The values of a kind of literals. -/
def Kind.Holds : Kind → Json → Prop
  | .number, v => ∃ n, v = .number n
  | .text, v => ∃ s, v = .text s
  | .null, v => v = .null

theorem Kind.holds_iff {kind : Kind} {v : Json} :
    kind.Holds v ↔ ∃ l : Literal, l.kind = kind ∧ l.value = v := by
  constructor
  · intro h
    cases kind with
    | number =>
      obtain ⟨n, rfl⟩ := h
      exact ⟨.number n, rfl, rfl⟩
    | text =>
      obtain ⟨s, rfl⟩ := h
      exact ⟨.text s, rfl, rfl⟩
    | null => exact ⟨.null, rfl, h.symm⟩
  · rintro ⟨l, rfl, rfl⟩
    cases l with
    | number n => exact ⟨n, rfl⟩
    | text s => exact ⟨s, rfl⟩
    | null => rfl

theorem Kind.name_inj {kind kind' : Kind} (h : kind.name = kind'.name) : kind = kind' := by
  revert h
  cases kind <;> cases kind' <;> decide

theorem kind_eq_null_iff {l : Literal} : l.kind = .null ↔ l = .null := by
  cases l <;> simp [kind]

section Objects

variable {members : List (String × Json)} {kind : Kind} (hnames : (members.map (·.1)).Nodup)
  (htype : ("type", .text kind.name) ∈ members)

include hnames htype

/-- An object that names a kind has the fields of a literal of that kind only, with its value, or with
any value for a null. -/
theorem fields_map_iff {l : Literal} :
    Fields (.map members) l ↔
      l.kind = kind ∧ (kind = .null ∨ l.value = payload (.map members)) := by
  have hfits : outline.Fits (.map members) :=
    Outline.fits_map_of_nodup (by simp [outline, Outline.record, kindField, valueField, Field.named])
      hnames
  have hkind {x : Json} : kindField.of? (.map members) = some x ↔ x = .text kind.name := by
    rw [kindField, hfits.named_of?_eq_some_iff (by simp [outline, Outline.record, kindField])]
    constructor
    · intro hx
      exact (Prod.mk.inj (List.inj_on_of_nodup_map hnames hx htype rfl)).2
    · rintro rfl
      exact htype
  have hvalue : valueField.of? (.map members) = members.lookup "value" :=
    Field.of?_named 1 "value" members
  have hname {l : Literal} : kind.name = l.kind.name ↔ l.kind = kind :=
    ⟨fun h => Kind.name_inj h.symm, fun h => congrArg Kind.name h.symm⟩
  rw [Fields, and_iff_right hfits]
  simp only [hkind, exists_eq_left, hvalue, Json.Chooses, Json.text.injEq, reduceCtorEq, or_false,
    hname]
  refine and_congr_right ?_
  rintro rfl
  rw [kind_eq_null_iff]
  show _ ↔ l = .null ∨ l.value = (members.lookup "value").getD .null
  cases members.lookup "value" with
  | none =>
    -- only a null has null for its value
    rw [or_iff_left (by simp)]
    exact ⟨.inl, fun h => h.elim id eq_null_of_value⟩
  | some x => rw [Option.some.injEq, Option.getD_some, @eq_comm _ x]

/-- A literal is read exactly if the value is of the kind, or the kind is that of null. -/
theorem exists_fields_map_iff :
    (∃ l, Fields (.map members) l) ↔ kind = .null ∨ kind.Holds (payload (.map members)) := by
  simp only [fields_map_iff hnames htype]
  constructor
  · rintro ⟨l, hkind, hnull | hvalue⟩
    · exact .inl hnull
    · exact .inr (Kind.holds_iff.2 ⟨l, hkind, hvalue⟩)
  · rintro (rfl | hholds)
    · exact ⟨.null, rfl, .inl rfl⟩
    · obtain ⟨l, hkind, hvalue⟩ := Kind.holds_iff.1 hholds
      exact ⟨l, hkind, .inr hvalue⟩

end Objects

/-- An object that names the kind of a literal is read as a literal of this kind exactly if its value is
of that kind; but where it names null, it is read as null whatever its value is. So what an object says
and what it is read as agree exactly if it does not name null with another value. An object that is
refused and has no member of a column or of a binary operator is kept, and written back with the same
members. -/
theorem read_kind_iff {members : List (String × Json)} {kind : Kind} {way : Reading}
    (hnames : (members.map (·.1)).Nodup) (htype : ("type", .text kind.name) ∈ members)
    (hroom : way.HasRoom (.map members)) :
    (∀ l, read way (Json.map members).toSource = .ok l ↔
      l.kind = kind ∧ (kind = .null ∨ l.value = payload (.map members))) ∧
    (((∃ l, read way (Json.map members).toSource = .ok l) ↔ kind.Holds (payload (.map members))) ↔
      (kind = .null → payload (.map members) = .null)) ∧
    ((¬ ∃ l, read way (Json.map members).toSource = .ok l) → "column" ∉ members.map (·.1) →
      "operator" ∉ members.map (·.1) →
      ∃ w, Expr.read way (Json.map members).toSource = .ok (.foreign w) ∧
        ((Json.map members).Distinct → (Json.map members).Reordered (Expr.foreign w).toJson)) := by
  simp only [read_toSource_iff hroom, exists_fields_map_iff hnames htype]
  refine ⟨fun l => fields_map_iff hnames htype, ?_, fun hrefused hcolumn hoperator => ?_⟩
  · by_cases hnull : kind = .null
    · subst hnull
      simp [Kind.Holds]
    · simp [hnull]
  · refine ⟨(Json.map members).normal, Expr.read_toSource_iff.2 ⟨hroom, .foreign ?_ ?_ ?_⟩,
      Json.Distinct.reordered_normal⟩
    · exact Column.not_fields_of_none (Field.of?_named_eq_none_iff.2 hcolumn)
    · exact fun l hl => hrefused ((exists_fields_map_iff hnames htype).1 ⟨l, hl⟩)
    · rintro op x y marked ⟨-, ⟨z, hz, -⟩, -⟩
      cases (Field.of?_named_eq_none_iff.2 hoperator).symm.trans hz

/-- The members of an object that says that it is a number, with a text for its value. -/
def numberAsText : List (String × Json) :=
  [("type", .text "number"), ("value", .text "5"), ("unit", .text "kg")]

/-- It is no literal, and kept as it is. -/
theorem read_kind_iff_numberAsText :
    (¬ ∃ l, read .whole (Json.map numberAsText).toSource = .ok l) ∧
      ∃ w, Expr.read .whole (Json.map numberAsText).toSource = .ok (.foreign w) ∧
        (Json.map numberAsText).Reordered (Expr.foreign w).toJson := by
  have hnames : (numberAsText.map (·.1)).Nodup := by decide
  have hroom : Reading.whole.HasRoom (.map numberAsText) := by
    show (Json.map numberAsText).depth ≤ 127
    decide
  obtain ⟨-, hagrees, hkept⟩ :=
    @read_kind_iff numberAsText .number .whole hnames List.mem_cons_self hroom
  have hrefused : ¬ ∃ l, read .whole (Json.map numberAsText).toSource = .ok l := by
    rw [hagrees.2 nofun]
    rintro ⟨n, hn⟩
    cases hn
  obtain ⟨w, hread, hsame⟩ := hkept hrefused (by decide) (by decide)
  exact ⟨hrefused, w, hread, hsame ⟨hnames, trivial, trivial, trivial, trivial⟩⟩

/-- An object that says that it is null, with a number for its value. -/
def nullWithValue : Json :=
  .map [("type", .text "null"), ("value", .number (.int ⟨5, by decide, by decide⟩))]

/-- It is read as null all the same, and its value is not written back. -/
theorem read_nullWithValue :
    read .whole nullWithValue.toSource = .ok .null ∧ ¬ Kind.null.Holds (payload nullWithValue) ∧
      Expr.read .whole nullWithValue.toSource = .ok (.literal .null) ∧
      ¬ nullWithValue.Reordered (Expr.literal .null).toJson := by
  refine ⟨rfl, nofun, rfl, fun h => ?_⟩
  obtain ⟨y, hy, hvalue⟩ := h.exists_mem (List.mem_cons_of_mem _ List.mem_cons_self)
  simp only [List.mem_cons, Prod.mk.injEq, String.reduceEq, false_and, true_and, List.not_mem_nil,
    or_false, false_or] at hy
  cases hvalue.null_iff.2 hy

end Literal

end QueryShaping
