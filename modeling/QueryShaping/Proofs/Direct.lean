import QueryShaping.Proofs.Restored

/-!
# What is read straight from a text

The tree of a text may have faults in it. A reader that reads straight from the text meets those that
it comes by: the names of all members are texts, and what is stored is well written and not nested too
deeply. Only what nobody asks for may be faulty.

## What this module delivers

- `Source.normal_toJson`: what any tree stands for is in normal form.
- `Source.exists_of_check`, `Expr.exists_of_read`: what is read to its end is a value, which fits the
  room.
- `Record.frame_of_readMembers`: the names of a map that is read, and what it has no fields for.
- `Record.spares_of_readMembers`, `Record.depth_of_others`: what is carried along from a map.
- `Statement.Shallow`, `Statement.shallow_of_read`, `Statement.tidy_of_read`: a statement that is read
  has no part that is written deeper than there was room for, and its parts are as a reader leaves
  them.
-/

set_option autoImplicit false

namespace QueryShaping

/-! ## Values of trees -/

namespace Source

theorem normal_atomValue (a : Atom) : (atomValue a).normal = atomValue a := by
  cases a with
  | text q => cases q <;> rfl
  | _ => rfl

mutual
/-- What any tree stands for is in normal form. -/
theorem normal_toJson : ∀ src : Source, src.toJson.normal = src.toJson
  | .atom a => normal_atomValue a
  | .list items _ => by
    rw [toJson, Json.normal, Json.normalItems_eq_map]
    exact congrArg Json.list ((List.map_congr_left (normal_of_mem_items items)).trans (List.map_id _))
  | .map members _ =>
    Json.normal_map_of_ascending (Json.ascending_ofMembers _) fun m hm =>
      normal_of_mem_members members m (Json.mem_of_mem_ofMembers hm)
  | .absent _ => rfl
theorem normal_of_mem_items : ∀ (items : List Source), ∀ x ∈ itemsToJson items, x.normal = x
  | [], _, hx => nomatch hx
  | item :: rest, x, hx => by
    rcases List.mem_cons.1 hx with rfl | hx
    · exact normal_toJson item
    · exact normal_of_mem_items rest x hx
theorem normal_of_mem_members : ∀ (members : List (Quoted × Source)), ∀ m ∈ membersToJson members,
    m.2.normal = m.2
  | [], _, hm => nomatch hm
  | (name, value) :: rest, m, hm => by
    rcases List.mem_cons.1 hm with rfl | hm
    · exact normal_toJson value
    · exact normal_of_mem_members rest m hm
end

end Source

namespace Json

/-- Putting a value into normal form does not nest it deeper. -/
theorem depth_normal_le (v : Json) : v.normal.depth ≤ v.depth := by
  induction v using Json.induction with
  | list items ih =>
    rw [normal, depth, depth, Nat.add_le_add_iff_right, depthItems_le_iff, normalItems_eq_map]
    refine List.forall_mem_map.2 fun x hx => Nat.le_trans (ih x hx) ?_
    -- an item is not deeper than the list of them is
    exact depthItems_le_iff.1 (Nat.le_refl _) x hx
  | map members ih =>
    rw [normal, depth, depth, Nat.add_le_add_iff_right, depthMembers_le_iff]
    intro m hm
    -- normal form leaves members out, but it adds none
    have hm := mem_of_mem_ofMembers hm
    rw [normalMembers_eq_map] at hm
    obtain ⟨n, hn, rfl⟩ := List.mem_map.1 hm
    exact Nat.le_trans (ih n hn) (depthMembers_le_iff.1 (Nat.le_refl _) n hn)
  | _ => exact Nat.le_refl _

end Json

namespace Source

/-- What is read to its end is a value that fits the room. -/
theorem exists_of_check {src : Source} {room : Nat} (h : src.check room = .ok ()) :
    ∃ v : Json, v.toSource = src ∧ v.depth ≤ room := by
  obtain ⟨v, rfl⟩ := exists_toSource_of_check src room h
  exact ⟨v, rfl, check_toSource_iff.1 h⟩

theorem depth_toJson_le {src : Source} {room : Nat} (h : src.check room = .ok ()) :
    src.toJson.depth ≤ room := by
  obtain ⟨v, rfl, hv⟩ := exists_of_check h
  rw [Json.toJson_toSource]
  exact Nat.le_trans v.depth_normal_le hv

end Source

/-- A condition that is read straight from a text is read from a value that fits the room. -/
theorem Expr.exists_of_read {src : Source} {room : Nat} {e : Expr}
    (h : Expr.read (.direct room) src = .ok e) :
    ∃ v : Json, v.toSource = src ∧ v.depth ≤ room ∧ Reads v e := by
  obtain ⟨hwhole, -⟩ := Expr.readWhole_of_read h
  obtain ⟨v, rfl, hv⟩ := Source.exists_of_check hwhole
  exact ⟨v, rfl, hv, (Expr.read_toSource_iff.1 h).2⟩

/-! ## Maps that are read -/

namespace Record

variable {α : Type} {o : Outline}

/-- A member that is read has a text for its name. It would be read without its value from a stored
map, and what is no field is read as such. -/
theorem exists_of_readMember {keep : Bool} {way : Reading} {seen seen' : List Field} {q : Quoted}
    {value : Source} (h : readMember keep o way seen q value = .ok seen') :
    ∃ name, q = .text name ∧
      readMember keep o .stored seen (.text name) Json.null.toSource = .ok seen' ∧
      (o.find? q = none → readOther keep way value = .ok ()) := by
  obtain ⟨name, hname, h⟩ := bind_eq_ok_iff.1 h
  obtain rfl := Quoted.check_eq_ok_iff.1 hname
  refine ⟨name, rfl, bind_eq_ok_iff.2 ⟨name, rfl, ?_⟩, fun hnone => ?_⟩
  · cases hfind : o.find? (.text name) with
    | none =>
      rw [hfind] at h
      exact (then_eq_ok_iff.1 h).2
    | some f =>
      rw [hfind] at h
      exact h
  · rw [hnone] at h
    exact (then_eq_ok_iff.1 h).1

/-- So it is with all the members of a map, which is closed. -/
theorem exists_bare_of_readMembers {keep : Bool} {way : Reading} {fin : MapEnd}
    {members : List (Quoted × Source)} :
    ∀ {place : Nat} {seen : List Field}, readMembers keep o way fin place seen members = .ok () →
      fin = .closed ∧ (∃ bare : List (String × Json),
          members.map (·.1) = (bare.map (·.1)).map Quoted.text ∧
          readMembers keep o .stored .closed place seen (Json.membersToSource bare) = .ok ()) ∧
        ∀ m ∈ members, o.find? m.1 = none → readOther keep way m.2 = .ok () := by
  induction members with
  | nil =>
    intro place seen h
    have hfin := MapEnd.check_eq_ok_iff.1 (Placed.ofExcept_eq_ok_iff.1 h)
    exact ⟨hfin, ⟨[], rfl, rfl⟩, by simp⟩
  | cons m rest ih =>
    intro place seen h
    obtain ⟨q, value⟩ := m
    rw [readMembers] at h
    cases hmember : readMember keep o way seen q value with
    | error e =>
      rw [hmember] at h
      cases h
    | ok seen' =>
      rw [hmember] at h
      obtain ⟨hfin, ⟨bare, hnames, hbare⟩, hothers⟩ := ih h
      obtain ⟨name, rfl, hstored, hother⟩ := exists_of_readMember hmember
      refine ⟨hfin, ⟨(name, .null) :: bare, ?_, ?_⟩, List.forall_mem_cons.2 ⟨hother, hothers⟩⟩
      · rw [List.map_cons, hnames]
        rfl
      · rw [Json.membersToSource, readMembers, hstored]
        exact hbare

/-- The members of a map that is read have texts for names, which give no field twice, the map is
closed, and what is no field is read as such. -/
theorem frame_of_readMembers (ho : o.Separate) {keep : Bool} {way : Reading} {fin : MapEnd}
    {members : List (Quoted × Source)} (h : readMembers keep o way fin 0 [] members = .ok ()) :
    fin = .closed ∧ (∃ names : List String, members.map (·.1) = names.map Quoted.text ∧
        o.FitsNames names) ∧
      ∀ m ∈ members, o.find? m.1 = none → readOther keep way m.2 = .ok () := by
  obtain ⟨hfin, ⟨bare, hnames, hbare⟩, hothers⟩ := exists_bare_of_readMembers h
  -- that the names fit does not depend on the values
  have hfits := (readMembers_stored_iff ho keep bare 0 []).1 hbare
  exact ⟨hfin, ⟨_, hnames, Outline.fits_map_iff.1 hfits⟩, hothers⟩

/-- A record that keeps what it has no field for is read from a map. -/
theorem parts_of_readMap {body : Reading → Record → List (String × Json) → Placed α} {way : Reading}
    {src : Source} {a : α} (h : readMap o body way src = .ok a) :
    ∃ members fin inner, src = .map members fin ∧ way.enter = .ok inner ∧
      readMembers true o inner fin 0 [] members = .ok () ∧
      body inner (.byName members) (others o members) = .ok a := by
  cases src with
  | map members fin =>
    obtain ⟨inner, hinner, h⟩ := bind_eq_ok_iff.1 h
    obtain ⟨hframe, hbody⟩ := frame_eq_ok_iff.1 h
    exact ⟨members, fin, inner, rfl, hinner, hframe, hbody⟩
  | _ => cases h

/-- The names of what is carried along are no names of fields, and the values are in normal form. -/
theorem spares_of_readMembers (ho : o.Separate) {way : Reading} {fin : MapEnd}
    {members : List (Quoted × Source)} (h : readMembers true o way fin 0 [] members = .ok ()) :
    o.Spares (others o members) := by
  obtain ⟨-, ⟨names, hnames, -⟩, -⟩ := frame_of_readMembers ho h
  refine ⟨Json.ascending_ofMembers _, fun m hm => ?_, fun m hm => ?_⟩
  · exact Source.normal_of_mem_members _ m (Json.mem_of_mem_ofMembers hm)
  · have hm := Json.mem_of_mem_ofMembers hm
    rw [Json.membersToJson_eq_map] at hm
    obtain ⟨⟨q, value⟩, hn, rfl⟩ := List.mem_map.1 hm
    obtain ⟨hn, hnone⟩ := List.mem_filter.1 hn
    -- every name is a text
    have hq : q ∈ members.map (·.1) := List.mem_map_of_mem hn
    rw [hnames] at hq
    obtain ⟨name, -, rfl⟩ := List.mem_map.1 hq
    exact Option.isNone_iff_eq_none.1 hnone

/-- What is carried along straight from a text fits the room. -/
theorem depth_of_others (ho : o.Separate) {room : Nat} {fin : MapEnd}
    {members : List (Quoted × Source)}
    (h : readMembers true o (.direct room) fin 0 [] members = .ok ()) :
    ∀ m ∈ others o members, m.2.depth ≤ room := by
  obtain ⟨-, -, hothers⟩ := frame_of_readMembers ho h
  intro m hm
  have hm := Json.mem_of_mem_ofMembers hm
  rw [Json.membersToJson_eq_map] at hm
  obtain ⟨n, hn, rfl⟩ := List.mem_map.1 hm
  obtain ⟨hn, hnone⟩ := List.mem_filter.1 hn
  exact Source.depth_toJson_le (hothers n hn (Option.isNone_iff_eq_none.1 hnone))

end Record

/-! ## Lists that are read -/

namespace Source

variable {α : Type} {read : Reading → Source → Except ReadError α}

theorem readOptional_eq_ok {read : Source → Except ReadError α} {src : Source} {a : Option α}
    (h : readOptional read src = .ok a) :
    src = .atom .null ∧ a = none ∨ src ≠ .atom .null ∧ ∃ b, read src = .ok b ∧ a = some b := by
  by_cases hnull : src = .atom .null
  · subst hnull
    exact Or.inl ⟨rfl, (Except.ok.inj h).symm⟩
  · rw [readOptional_of_ne_null hnull] at h
    obtain ⟨b, hb, rfl⟩ := map_eq_ok_iff.1 h
    exact Or.inr ⟨hnull, b, hb, rfl⟩

/-- Null stands for an empty list. -/
theorem readListOrNull_eq_ok {way : Reading} {src : Source} {values : List α}
    (h : readListOrNull read way src = .ok values) :
    src = .atom .null ∧ values = [] ∨ readList read way src = .ok values := by
  obtain ⟨part, hpart, rfl⟩ := map_eq_ok_iff.1 h
  rcases readOptional_eq_ok hpart with ⟨rfl, rfl⟩ | ⟨-, b, hb, rfl⟩
  · exact Or.inl ⟨rfl, rfl⟩
  · exact Or.inr hb

end Source

/-! ## Statements -/

namespace Reading

/-- What can be entered straight from a text has room for one more level. -/
theorem enter_direct_eq_ok {room : Nat} {inner : Reading}
    (h : (Reading.direct room).enter = .ok inner) : ∃ rest, room = rest + 1 ∧ inner = .direct rest := by
  cases room with
  | zero => cases h
  | succ rest => exact ⟨rest, rfl, (Except.ok.inj h).symm⟩

end Reading

/-- A part that is there comes from the value of a field. -/
theorem Record.exists_of_optional_byName {α : Type} {members : List (Quoted × Source)} {f : Field}
    {read : Source → Except ReadError α} {a : α}
    (h : (byName members).optional f read = .ok (some a)) :
    ∃ place x, (byName members).find? f = some (place, x) ∧ x ≠ .atom .null ∧ read x = .ok a := by
  rcases withDefault_eq_ok_iff.1 h with ⟨-, hnone⟩ | ⟨place, x, hfind, hread⟩
  · cases hnone
  · rcases Source.readOptional_eq_ok hread with ⟨-, hnone⟩ | ⟨hnull, b, hb, hsome⟩
    · cases hnone
    · obtain rfl := Option.some.inj hsome
      exact ⟨place, x, hfind, hnull, hb⟩

theorem Json.depth_ofText? (s : Option String) : (Json.ofText? s).depth = 0 := by
  cases s <;> rfl

theorem Column.depth_toJson (c : Column) : c.toJson.depth = 1 := by
  simp [toJson, Json.depth, Json.depthMembers, Json.depth_ofText?]

theorem Literal.depth_toJson (l : Literal) : l.toJson.depth = 1 := by
  cases l <;> rfl

theorem SelectItem.depth_toJson (item : SelectItem) : item.toJson.depth = 2 := by
  simp [toJson, Json.depth, Json.depthMembers, Column.depth_toJson, Json.depth_ofText?]

theorem OrderEntry.depth_toJson (e : OrderEntry) : e.toJson.depth = 2 := by
  simp [toJson, Json.depth, Json.depthMembers, Column.depth_toJson]

theorem Window.depth_toJson (w : Window) : w.toJson.depth = 2 := by
  simp [toJson, Json.depth, Json.depthItems, Literal.depth_toJson]

namespace Expr

theorem depth_toJson_binary (op : Operator) (left right : Expr) (marked : Bool) :
    (binary op left right marked).toJson.depth
      = max left.toJson.depth right.toJson.depth + 1 := by
  cases marked <;> simp [toJson, markMember, Json.depth, Json.depthMembers]

/-- Writing what was read does not nest it deeper. -/
theorem Reads.depth_toJson_le {v : Json} {e : Expr} (h : Reads v e) : e.toJson.depth ≤ v.depth := by
  induction h with
  | @column v c hc =>
    show c.toJson.depth ≤ v.depth
    rw [c.depth_toJson]
    exact hc.1.depth_pos
  | @literal v l _ hl =>
    show l.toJson.depth ≤ v.depth
    rw [l.depth_toJson]
    exact hl.1.depth_pos
  | @binary v x y op marked left right _ _ hb _ _ ihx ihy =>
    -- the operands stand inside the node, before and after
    obtain ⟨-, -, hx, hy, -⟩ := hb
    have hx := Json.depth_lt_of_mem_parts (Field.mem_parts_of_of? hx)
    have hy := Json.depth_lt_of_mem_parts (Field.mem_parts_of_of? hy)
    rw [depth_toJson_binary]
    omega
  | @foreign v _ _ _ => exact v.depth_normal_le

end Expr

/-- A table comes from a map, and keeps what it has no fields for. -/
theorem Table.parts_of_read {way : Reading} {src : Source} {t : Table} (h : read way src = .ok t) :
    ∃ members fin inner, src = .map members fin ∧ way.enter = .ok inner ∧
      Record.readMembers true outline inner fin 0 [] members = .ok () ∧
      (Record.byName members).optional databaseField Source.readText = .ok t.database ∧
      (Record.byName members).optional nameField Source.readText = .ok t.name ∧
      (Record.byName members).optional aliasField Source.readText = .ok t.aliasName ∧
      Record.others outline members = t.extra := by
  obtain ⟨members, fin, inner, rfl, hinner, hframe, h⟩ := Record.parts_of_readMap h
  simp only [Placed.seq_eq_ok_iff, Placed.map_eq_ok_iff] at h
  obtain ⟨_, _, ⟨_, _, ⟨_, hdatabase, rfl⟩, hname, rfl⟩, halias, rfl⟩ := h
  exact ⟨members, fin, inner, rfl, hinner, hframe, hdatabase, hname, halias, rfl⟩

/-- What a table keeps has no names of its fields, and the table is not written deeper than there was
room for. -/
theorem Table.spares_of_readDirect {room : Nat} {src : Source} {t : Table}
    (h : read (.direct room) src = .ok t) : outline.Spares t.extra ∧ t.toJson.depth ≤ room := by
  obtain ⟨members, fin, inner, rfl, hinner, hframe, -, -, -, hothers⟩ := parts_of_read h
  obtain ⟨rest, rfl, rfl⟩ := Reading.enter_direct_eq_ok hinner
  rw [← hothers]
  refine ⟨Record.spares_of_readMembers outline_separate hframe, ?_⟩
  have hextra := Record.depth_of_others outline_separate hframe
  have hknown : ∀ m ∈ t.known, m.2.depth ≤ rest := by
    simp [known, Json.depth_ofText?]
  have hmembers : Json.depthMembers (t.known ++ t.extra) ≤ rest := by
    rw [Json.depthMembers_le_iff, List.forall_mem_append]
    exact ⟨hknown, hothers ▸ hextra⟩
  exact Nat.succ_le_succ hmembers

namespace Statement

/-- Apart from its condition, no part of a statement is written deeper than so many levels. -/
structure Shallow (room : Nat) (st : Statement) : Prop where
  distinct : st.distinct.depth ≤ room
  tables : ∀ t ∈ st.tables, t.toJson.depth < room
  groups : ∀ es, st.groups = some es → ∀ e ∈ es, e.toJson.depth < room
  extra : ∀ m ∈ st.extra, m.2.depth ≤ room

/-- A request adds nothing to the parts that may be deep, apart from the condition. -/
theorem Shallow.apply {room : Nat} {st : Statement} (h : st.Shallow room) (p : Patch) :
    (p.apply st).Shallow room := ⟨h.distinct, h.tables, h.groups, h.extra⟩

section Read

variable {room : Nat} {src : Source} {st : Statement}

theorem frame_of_read {members : List (Quoted × Source)} {fin : MapEnd}
    (h : Statement.read (.direct (room + 1)) (.map members fin) = .ok st) :
    Record.readMembers true outline (.direct room) fin 0 [] members = .ok () := by
  obtain ⟨_, _, inner, hsrc, hinner, hframe, -⟩ := Record.parts_of_readMap h
  obtain ⟨rfl, rfl⟩ := Source.map.inj hsrc
  obtain rfl := Except.ok.inj hinner
  exact hframe

/-- The tables of a statement that is read keep no names of fields, and are not too deep. -/
theorem tables_of_read (h : Statement.read (.direct (room + 1)) src = .ok st) :
    ∀ t ∈ st.tables, Table.outline.Spares t.extra ∧ t.toJson.depth < room := by
  obtain ⟨members, fin, inner, rfl, hinner, -, -, -, htables, -⟩ := parts_of_read h
  obtain rfl := Except.ok.inj hinner
  intro t ht
  -- a table that is there was read, so the list of them was neither left out nor null
  rcases Record.withDefault_eq_ok_iff.1 htables with ⟨-, hnil⟩ | ⟨place, x, -, hread⟩
  · rw [← hnil] at ht
    cases ht
  rcases Source.readListOrNull_eq_ok hread with ⟨-, hnil⟩ | hlist
  · rw [hnil] at ht
    cases ht
  obtain ⟨items, inner, -, hinner, hitems⟩ := Source.readList_eq_ok_iff.1 hlist
  obtain ⟨item, -, hread⟩ := exists_of_mem_forall₂ hitems ht
  obtain ⟨rest, rfl, rfl⟩ := Reading.enter_direct_eq_ok hinner
  obtain ⟨hspares, hdepth⟩ := Table.spares_of_readDirect hread
  exact ⟨hspares, Nat.lt_succ_of_le hdepth⟩

/-- The condition of a statement that is read is read from a value other than null, which is not too
deep. -/
theorem exists_condition_of_read (h : Statement.read (.direct (room + 1)) src = .ok st) {e : Expr}
    (he : st.condition = some e) :
    ∃ v : Json, src.member? conditionField = some v.toSource ∧ v ≠ .null ∧ v.depth ≤ room ∧
      Expr.Reads v e := by
  obtain ⟨members, fin, inner, rfl, hinner, -, -, -, -, hcondition, -⟩ := parts_of_read h
  obtain rfl := Except.ok.inj hinner
  rw [he] at hcondition
  obtain ⟨place, x, hfind, hnull, hread⟩ := Record.exists_of_optional_byName hcondition
  obtain ⟨v, rfl, hdepth, hreads⟩ := Expr.exists_of_read hread
  refine ⟨v, by rw [Source.member?, hfind, Option.map_some], ?_, hdepth, hreads⟩
  rintro rfl
  exact hnull rfl

/-- The conditions that a statement is grouped by are read from the values of a list, which are not
too deep. -/
theorem exists_groups_of_read (h : Statement.read (.direct (room + 1)) src = .ok st) {es : List Expr}
    (hes : st.groups = some es) :
    ∃ vs : List Json, src.member? groupsField = some (Json.list vs).toSource ∧
      List.Forall₂ (fun v e => v.depth < room ∧ Expr.Reads v e) vs es := by
  obtain ⟨members, fin, inner, rfl, hinner, -, -, -, -, -, hgroups, -⟩ := parts_of_read h
  obtain rfl := Except.ok.inj hinner
  rw [hes] at hgroups
  obtain ⟨place, x, hfind, -, hlist⟩ := Record.exists_of_optional_byName hgroups
  obtain ⟨items, inner, rfl, hinner, hitems⟩ := Source.readList_eq_ok_iff.1 hlist
  obtain ⟨rest, rfl, rfl⟩ := Reading.enter_direct_eq_ok hinner
  have hvalues : ∃ vs : List Json, Json.itemsToSource vs = items ∧
      List.Forall₂ (fun v e => v.depth < rest + 1 ∧ Expr.Reads v e) vs es := by
    clear h hgroups hlist hes hfind
    -- each item is the tree of a value, so the list of them is
    induction hitems with
    | nil => exact ⟨[], rfl, .nil⟩
    | cons hitem _ ih =>
      obtain ⟨vs, rfl, hvs⟩ := ih
      obtain ⟨v, rfl, hdepth, hreads⟩ := Expr.exists_of_read hitem
      exact ⟨v :: vs, rfl, .cons ⟨Nat.lt_succ_of_le hdepth, hreads⟩ hvs⟩
  obtain ⟨vs, rfl, hvs⟩ := hvalues
  exact ⟨vs, by rw [Source.member?, hfind, Option.map_some, Json.toSource], hvs⟩

/-- What is carried along from a statement fits the room. -/
theorem distinct_of_read (h : Statement.read (.direct (room + 1)) src = .ok st) :
    st.distinct.normal = st.distinct ∧ st.distinct.depth ≤ room := by
  obtain ⟨members, fin, inner, rfl, hinner, -, hdistinct, -⟩ := parts_of_read h
  obtain rfl := Except.ok.inj hinner
  rcases Record.withDefault_eq_ok_iff.1 hdistinct with ⟨-, hnull⟩ | ⟨place, x, -, hread⟩
  · rw [← hnull]
    exact ⟨rfl, Nat.zero_le room⟩
  · -- before a value is carried along it is read to its end
    obtain ⟨hcheck, hvalue⟩ := then_eq_ok_iff.1 hread
    rw [← Except.ok.inj hvalue]
    exact ⟨x.normal_toJson, Source.depth_toJson_le hcheck⟩

theorem extra_of_read (h : Statement.read (.direct (room + 1)) src = .ok st) :
    outline.Spares st.extra ∧ ∀ m ∈ st.extra, m.2.depth ≤ room := by
  obtain ⟨members, fin, inner, rfl, -, -, -, -, -, -, -, -, -, hextra⟩ := parts_of_read h
  have hframe := frame_of_read h
  rw [← hextra]
  exact ⟨Record.spares_of_readMembers outline_separate hframe,
    Record.depth_of_others outline_separate hframe⟩

/-- The parts of a statement that is read straight from a text are as a reader leaves them. -/
theorem tidy_of_read (h : Statement.read (.direct (room + 1)) src = .ok st) : st.Tidy where
  distinct := (distinct_of_read h).1
  tables t ht := (tables_of_read h t ht).1
  condition e he := by
    obtain ⟨v, -, hnull, -, hreads⟩ := exists_condition_of_read h he
    exact ⟨hreads.tidy, hreads.toJson_ne_null hnull⟩
  groups es hes e he := by
    obtain ⟨vs, -, hvs⟩ := exists_groups_of_read h hes
    obtain ⟨v, -, -, hreads⟩ := exists_of_mem_forall₂ hvs he
    exact hreads.tidy
  extra := (extra_of_read h).1

theorem shallow_of_read (h : Statement.read (.direct (room + 1)) src = .ok st) : st.Shallow room where
  distinct := (distinct_of_read h).2
  tables t ht := (tables_of_read h t ht).2
  groups es hes e he := by
    obtain ⟨vs, -, hvs⟩ := exists_groups_of_read h hes
    obtain ⟨v, -, hdepth, hreads⟩ := exists_of_mem_forall₂ hvs he
    exact Nat.lt_of_le_of_lt hreads.depth_toJson_le hdepth
  extra := (extra_of_read h).2

end Read

end Statement

end QueryShaping
