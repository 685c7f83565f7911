import QueryShaping.Document
import QueryShaping.Proofs.Records
import QueryShaping.Proofs.Shape

/-!
# What an accepted document holds

A document that is accepted has its parts where they are looked for, and each of them was read
without fault. So what is known of the readers of the parts carries over to whole documents.

## What this module delivers

- `Source.exists_toSource_of_check`: a tree that is well written is the tree of a value.
- `Source.member?`, `Json.member?`: the value that a map holds in a field, as it is written, and the
  value under a name.
- `Document.ofText_of_ofChars`, `Document.statement_of_ofText`: a document from the tree of its text,
  and the statement that it holds.
- `Document.shapeText_eq_ok_iff`: what stands behind the text of a shaped statement.
- `Document.exists_condition`: the condition of an accepted document is a value, and the statement has
  the condition that the value is read as.
-/

set_option autoImplicit false

namespace QueryShaping

/-! ## Well written trees -/

namespace Source

theorem exists_toSource_of_found {atom : Atom} {found : Found} (h : atom.found = .ok found) :
    ∃ v : Json, v.toSource = .atom atom := by
  cases atom with
  | null => exact ⟨.null, rfl⟩
  | bool b => exact ⟨.bool b, rfl⟩
  | number n => exact ⟨.number n, rfl⟩
  | text q =>
    obtain ⟨s, hs, -⟩ := map_eq_ok_iff.1 h
    exact ⟨.text s, by rw [Quoted.check_eq_ok_iff.1 hs, Json.toSource]⟩
  | badNumber fault => cases h
  | badName fault => cases h

mutual
/-- A tree that can be read to its end is the tree of a value. -/
theorem exists_toSource_of_check : ∀ (src : Source) (room : Nat), src.check room = .ok () →
    ∃ v : Json, v.toSource = src
  | .atom a, room, h => by
    rw [check] at h
    cases hfound : a.found with
    | ok found => exact exists_toSource_of_found hfound
    | error e =>
      rw [hfound] at h
      cases h
  | .list items fin, 0, h => nomatch h
  | .list items fin, room + 1, h => by
    obtain ⟨u, hitems, hfin⟩ := bind_eq_ok_iff.1 h
    obtain ⟨values, rfl⟩ := exists_itemsToSource_of_check items room hitems
    exact ⟨.list values, by rw [ListEnd.check_eq_ok_iff.1 hfin, Json.toSource]⟩
  | .map members fin, 0, h => nomatch h
  | .map members fin, room + 1, h => by
    obtain ⟨u, hmembers, hfin⟩ := bind_eq_ok_iff.1 h
    obtain ⟨values, rfl⟩ := exists_membersToSource_of_check members room hmembers
    exact ⟨.map values, by rw [MapEnd.check_eq_ok_iff.1 hfin, Json.toSource]⟩
  | .absent reason, room, h => by
    rw [check] at h
    cases h
theorem exists_itemsToSource_of_check : ∀ (items : List Source) (room : Nat),
    checkItems room items = .ok () → ∃ values, Json.itemsToSource values = items
  | [], _, _ => ⟨[], rfl⟩
  | item :: rest, room, h => by
    rw [checkItems] at h
    obtain ⟨u, hitem, hrest⟩ := bind_eq_ok_iff.1 h
    obtain ⟨v, rfl⟩ := exists_toSource_of_check item room hitem
    obtain ⟨values, rfl⟩ := exists_itemsToSource_of_check rest room hrest
    exact ⟨v :: values, rfl⟩
theorem exists_membersToSource_of_check : ∀ (members : List (Quoted × Source)) (room : Nat),
    checkMembers room members = .ok () → ∃ values, Json.membersToSource values = members
  | [], _, _ => ⟨[], rfl⟩
  | (name, value) :: rest, room, h => by
    rw [checkMembers] at h
    obtain ⟨s, hname, h⟩ := bind_eq_ok_iff.1 h
    obtain ⟨u, hvalue, hrest⟩ := bind_eq_ok_iff.1 h
    obtain ⟨v, rfl⟩ := exists_toSource_of_check value room hvalue
    obtain ⟨values, rfl⟩ := exists_membersToSource_of_check rest room hrest
    exact ⟨(s, v) :: values, by rw [Json.membersToSource, Quoted.check_eq_ok_iff.1 hname]⟩
end

/-! ## Parts of trees -/

/-- The value that a map holds in a field, as it is written. -/
def member? (f : Field) : Source → Option Source
  | .map members _ => ((Record.byName members).find? f).map (·.2)
  | _ => none

theorem readOptional_of_ne_null {α : Type} {read : Source → Except ReadError α} {src : Source}
    (h : src ≠ .atom .null) : readOptional read src = some <$> read src := by
  unfold readOptional
  split
  · exact absurd rfl h
  · rfl

end Source

/-- The value of the first member of a map that has the name. -/
def Json.member? (name : String) : Json → Option Json
  | .map members => members.lookup name
  | _ => none

/-! ## Statements -/

theorem Expr.readWhole_of_read {way : Reading} {src : Source} {e : Expr}
    (h : Expr.read way src = .ok e) : src.readWhole way = .ok () ∧ Expr.ofSource src = e := by
  obtain ⟨u, hwhole, h⟩ := bind_eq_ok_iff.1 h
  exact ⟨hwhole, Except.ok.inj h⟩

namespace Statement

/-- Every part of a statement comes from a field of the map that it was read from. -/
theorem parts_of_read {way : Reading} {src : Source} {st : Statement}
    (h : Statement.read way src = .ok st) :
    ∃ members fin inner, src = .map members fin ∧ way.enter = .ok inner ∧
      (Record.byName members).required kindField (readKind inner) = .ok () ∧
      (Record.byName members).withDefault distinctField .null (Source.readAny inner)
        = .ok st.distinct ∧
      (Record.byName members).withDefault itemsField []
        (Source.readListOrNull SelectItem.read inner) = .ok st.items ∧
      (Record.byName members).withDefault tablesField [] (Source.readListOrNull Table.read inner)
        = .ok st.tables ∧
      (Record.byName members).optional conditionField (Expr.read inner) = .ok st.condition ∧
      (Record.byName members).optional groupsField (Source.readList Expr.read inner)
        = .ok st.groups ∧
      (Record.byName members).optional orderField (Source.readList OrderEntry.read inner)
        = .ok st.order ∧
      (Record.byName members).optional windowField (Window.read inner) = .ok st.window ∧
      Record.others outline members = st.extra := by
  obtain ⟨members, fin, inner, rfl, hinner, h⟩ := Record.readMap_eq_ok h
  simp only [Placed.seq_eq_ok_iff, Placed.map_eq_ok_iff] at h
  obtain ⟨_, _, ⟨_, _, ⟨_, _, ⟨_, _, ⟨_, _, ⟨_, _, ⟨_, _, ⟨_, hkind, rfl⟩, hdistinct, rfl⟩, hitems,
    rfl⟩, htables, rfl⟩, hcondition, rfl⟩, hgroups, rfl⟩, horder, rfl⟩, hwindow, rfl⟩ := h
  exact ⟨members, fin, inner, rfl, hinner, hkind, hdistinct, hitems, htables, hcondition, hgroups,
    horder, hwindow, rfl⟩

/-- A statement has the condition that its member `where` is read as, unless that is null. -/
theorem condition_of_read {way : Reading} {src cond : Source} {st : Statement}
    (h : Statement.read way src = .ok st) (hcond : src.member? conditionField = some cond)
    (hnull : cond ≠ .atom .null) :
    ∃ inner, way.enter = .ok inner ∧ cond.readWhole inner = .ok () ∧
      st.condition = some (Expr.ofSource cond) := by
  obtain ⟨members, fin, inner, rfl, hinner, -, -, -, -, h, -⟩ := parts_of_read h
  obtain ⟨⟨place, _⟩, hfind, rfl⟩ := Option.map_eq_some_iff.1 hcond
  -- the member that was looked up is the one that was read
  rcases Record.withDefault_eq_ok_iff.1 h with ⟨hnone, -⟩ | ⟨place', src', hfind', hread⟩
  · cases hnone.symm.trans hfind
  · cases hfind.symm.trans hfind'
    rw [Source.readOptional_of_ne_null hnull] at hread
    obtain ⟨e, he, hsome⟩ := map_eq_ok_iff.1 hread
    obtain ⟨hwhole, rfl⟩ := Expr.readWhole_of_read he
    exact ⟨inner, hinner, hwhole, hsome.symm⟩

end Statement

/-! ## Documents -/

namespace Document

theorem statement_of_read {way : Reading} {src : Source} {d : Document}
    (h : Document.read way src = .ok d) :
    ∃ inner stSrc, way.enter = .ok inner ∧ src.member? statementField = some stSrc ∧
      Statement.read inner stSrc = .ok d.statement := by
  obtain ⟨st, hst, h⟩ := bind_eq_ok_iff.1 h
  obtain ⟨req, -, h⟩ := bind_eq_ok_iff.1 h
  obtain rfl := Except.ok.inj h
  obtain ⟨members, fin, inner, rfl, hinner, h⟩ := Record.readMap_eq_ok hst
  obtain ⟨place, stSrc, hfind, hread⟩ := Record.required_eq_ok_iff.1 h
  exact ⟨inner, stSrc, hinner, by rw [Source.member?, hfind, Option.map_some], hread⟩

theorem ofText_eq_ok_iff {s : String} {d : Document} :
    ofText s = .ok d ↔
      (Source.ofChars s.toList).2 = false ∧
        Document.read .whole (Source.ofChars s.toList).1 = .ok d := by
  rw [ofText, readString, readChars]
  obtain ⟨src, surplus⟩ := Source.ofChars s.toList
  simp only
  cases hread : Document.read .whole src with
  | error e => simp [bind, Except.bind, Except.mapError]
  -- what follows the value is a fault only where the value has none
  | ok d' => cases surplus <;> simp [bind, Except.bind, pure, Except.pure, Except.mapError]

/-- A document whose text has a known tree is read from the tree. -/
theorem ofText_of_ofChars {s : String} {src : Source} {d : Document}
    (hs : Source.ofChars s.toList = (src, false)) (hread : Document.read .whole src = .ok d) :
    ofText s = .ok d := by
  rw [ofText_eq_ok_iff, hs]
  exact ⟨rfl, hread⟩

/-- The text of a document holds the statement, which is read one level below the top. -/
theorem statement_of_ofText {s : String} {d : Document} (h : ofText s = .ok d) :
    ∃ src, (Source.ofChars s.toList).1.member? statementField = some src ∧
      Statement.read (.direct 126) src = .ok d.statement := by
  obtain ⟨inner, src, hinner, hsrc, hread⟩ := statement_of_read (ofText_eq_ok_iff.1 h).2
  obtain rfl := Except.ok.inj hinner
  exact ⟨src, hsrc, hread⟩

/-- What cannot be read is a fault of reading. -/
theorem exists_unreadable {s : String} {failure : Failure} (h : ofText s = .error failure) :
    ∃ e, failure = .unreadable e := by
  rw [ofText] at h
  cases hread : readString read s with
  | ok d =>
    rw [hread] at h
    cases h
  | error e =>
    rw [hread] at h
    exact ⟨e, (Except.error.inj h).symm⟩

theorem shapeText_eq (pretty : Bool) {s : String} {d : Document} (h : ofText s = .ok d) :
    shapeText pretty s = text pretty <$> d.shape := by
  rw [shapeText, h]
  cases hshape : d.shape with
  | error failure => simp [bind, Except.bind, hshape, Functor.map, Except.map]
  | ok st => simp [bind, Except.bind, hshape, pure, Except.pure, Functor.map, Except.map]

/-- A document asks for what its request asks for. -/
theorem shape_eq_ok_iff {d : Document} {st : Statement} :
    d.shape = .ok st ↔
      ∃ p, d.request.patch d.statement = .ok p ∧ p.apply d.statement = st := by
  rw [← Request.shape_eq_ok_iff, shape]
  -- naming the stage of a failure does not touch a success
  cases d.request.shape d.statement <;> simp [Except.mapError]

/-- Behind the text of a shaped statement there are the document that was read, and the patch that
its request asks for. -/
theorem shapeText_eq_ok_iff {pretty : Bool} {s out : String} :
    shapeText pretty s = .ok out ↔
      ∃ d p, ofText s = .ok d ∧ d.request.patch d.statement = .ok p ∧
        text pretty (p.apply d.statement) = out := by
  rw [shapeText, bind_eq_ok_iff]
  constructor
  · rintro ⟨d, hd, h⟩
    obtain ⟨st, hst, h⟩ := bind_eq_ok_iff.1 h
    obtain ⟨p, hp, rfl⟩ := shape_eq_ok_iff.1 hst
    exact ⟨d, p, hd, hp, Except.ok.inj h⟩
  · rintro ⟨d, p, hd, hp, rfl⟩
    exact ⟨d, hd, bind_eq_ok_iff.2 ⟨_, shape_eq_ok_iff.2 ⟨p, hp, rfl⟩, rfl⟩⟩

/-- The condition of the statement in the text of a document, as it is written. -/
def conditionOf? (s : String) : Option Source :=
  ((Source.ofChars s.toList).1.member? statementField).bind
    (·.member? Statement.conditionField)

/-- The condition of an accepted document is a value, unless it is null, and the statement has the
condition that the value is read as. -/
theorem exists_condition {s : String} {d : Document} {cond : Source} (h : ofText s = .ok d)
    (hcond : conditionOf? s = some cond) (hnull : cond ≠ .atom .null) :
    ∃ v : Json, v.toSource = cond ∧ d.statement.condition = some (Expr.ofSource cond) := by
  obtain ⟨stSrc, hst, hread⟩ := statement_of_ofText h
  rw [conditionOf?, hst, Option.bind_some] at hcond
  obtain ⟨inner, hinner, hwhole, hcondition⟩ := Statement.condition_of_read hread hcond hnull
  -- the text is read straight, two levels below the top
  obtain rfl := Except.ok.inj hinner
  obtain ⟨v, hv⟩ := Source.exists_toSource_of_check cond _ hwhole
  exact ⟨v, hv, hcondition⟩

end Document

end QueryShaping
