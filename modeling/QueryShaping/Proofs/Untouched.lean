import QueryShaping.Proofs.Faithful
import QueryShaping.Proofs.Returned

/-!
# What a request does not touch

Shaping rewrites a document, but most of its statement is none of the business of a request. The
selected columns and the tables stay as they are, and so do the order and the window if the request
asks for none. Members that no field of a statement or a table goes by keep their values.

## What this module delivers

- `Json.Completes`: a map that is written with null for members that it did not have.
- `Table.completes_of_read`: tables are written so.
- `Statement.Carried`, `Document.shapeText_carried`: what of a statement stays through shaping.
-/

set_option autoImplicit false

namespace QueryShaping

/-! ## What written parts denote -/

namespace SelectItem

/-- The written form of a selected column denotes it, also with its members in order. -/
theorem fields_normal (item : SelectItem) : Fields item.toJson.normal item :=
  read_iff.1 (steady_read.read_normal item.distinct_toJson item.read_toJson)

end SelectItem

namespace OrderEntry

theorem fields_normal (e : OrderEntry) : Fields e.toJson.normal e :=
  read_iff.1 (steady_read.read_normal e.distinct_toJson e.read_toJson)

end OrderEntry

namespace Window

theorem fields_normal (w : Window) : Fields w.toJson.normal w :=
  read_iff.1 (steady_read.read_normal w.distinct_toJson w.read_toJson)

end Window

/-! ## Members of maps -/

namespace Json

/-- Where no name occurs twice, normal form holds the same under each name. -/
theorem member?_normal {members : List (String × Json)} (h : (members.map (·.1)).Nodup)
    (name : String) :
    (map members).normal.member? name = (members.lookup name).map normal := by
  have hnames : ((normalMembers members).map (·.1)).Nodup := by rwa [names_normalMembers]
  show (ofMembers (normalMembers members)).lookup name = _
  rw [← lookup_map_normal]
  -- neither names a member twice, and they have the same members
  apply Option.ext
  intro x
  rw [lookup_eq_some_iff_mem (ascending_ofMembers _).nodup, lookup_eq_some_iff_mem hnames,
    (ofMembers_perm hnames).mem_iff]

/-- A map that is written with null for members that it did not have, and otherwise holds the same. -/
def Completes (names : List String) (v w : Json) : Prop :=
  (∃ members, v = .map members) ∧ (∃ members, w = .map members) ∧
    (∀ name ∈ names, w.member? name = some ((v.member? name).getD .null)) ∧
    ∀ name, name ∉ names → w.member? name = v.member? name

end Json

namespace Outline

/-- The names of the fields of a record. -/
def names (o : Outline) : List String := o.fields.map Field.name

/-- If no field has other names, the names of the fields are those that denote one. -/
theorem find?_eq_none_iff {o : Outline} (h : ∀ f ∈ o.fields, f.aliases = []) {name : String} :
    o.find? (.text name) = none ↔ name ∉ o.names := by
  show o.fields.find? (·.matchesName (.text name)) = none ↔ _
  rw [List.find?_eq_none, names, List.mem_map, not_exists]
  refine forall_congr' fun f => ?_
  rw [not_and]
  refine forall_congr' fun hf => not_congr ?_
  show f.goesBy name = true ↔ _
  rw [Field.goesBy_iff, h f hf]
  simp [eq_comm]

end Outline

namespace Record

variable {o : Outline} {members : List (Quoted × Source)}

theorem others_named (o : Outline) (named : List (String × Source)) :
    others o (named.map fun m => (.text m.1, m.2))
      = Json.ofMembers ((named.map fun m => (m.1, m.2.toJson)).filter
          fun m => (o.find? (.text m.1)).isNone) := by
  rw [others, List.filter_map, Json.membersToJson_eq_map, List.map_map, List.filter_map]
  rfl

/-- What is carried along from a map is the value of the map under each name that denotes no field. -/
theorem lookup_others (ho : o.Separate) {way : Reading} {fin : MapEnd}
    (h : readMembers true o way fin 0 [] members = .ok ()) {name : String}
    (hname : o.find? (.text name) = none) :
    (others o members).lookup name = (Source.map members fin).toJson.member? name := by
  obtain ⟨-, ⟨names, hnames, -⟩, -⟩ := frame_of_readMembers ho h
  obtain ⟨named, rfl⟩ := exists_named hnames
  have hvalue : (Source.map (named.map fun m => (.text m.1, m.2)) fin).toJson
      = .map (Json.ofMembers (named.map fun m => (m.1, m.2.toJson))) := by
    rw [Source.toJson, Json.membersToJson_eq_map, List.map_map]
    rfl
  have hkept : (o.find? (.text name)).isNone = true := Option.isNone_iff_eq_none.2 hname
  rw [others_named, hvalue]
  show _ = (Json.ofMembers _).lookup name
  -- the last value of the name is found on both sides, since the filter looks at names only
  rw [Json.lookup_ofMembers, Json.lookup_ofMembers, ← List.filter_reverse]
  exact Json.lookup_filter (p := fun name => (o.find? (.text name)).isNone) hkept _

/-- It has the names in the map that denote no field. -/
theorem mem_names_others (ho : o.Separate) {way : Reading} {fin : MapEnd}
    (h : readMembers true o way fin 0 [] members = .ok ()) {name : String} :
    name ∈ (others o members).map (·.1) ↔
      Quoted.text name ∈ members.map (·.1) ∧ o.find? (.text name) = none := by
  obtain ⟨-, ⟨names, hnames, -⟩, -⟩ := frame_of_readMembers ho h
  obtain ⟨named, rfl⟩ := exists_named hnames
  rw [others_named, ← Json.isSome_lookup_iff, Json.lookup_ofMembers, Json.isSome_lookup_iff]
  simp [and_comm]

end Record

/-- Beside the fields the spare members are found in normal form. -/
theorem Outline.Spares.member?_append {o : Outline} {known extra : List (String × Json)}
    (h : o.Spares extra) (hdistinct : (Json.map (known ++ extra)).Distinct)
    (hfields : ∀ m ∈ known, (o.find? (.text m.1)).isSome = true) {name : String}
    (hname : o.find? (.text name) = none) :
    (Json.map (known ++ extra)).normal.member? name = extra.lookup name := by
  have hnodup := ((Json.distinct_map_iff _).1 hdistinct).1
  have hknown : known.lookup name = none := by
    rw [List.lookup_eq_none_iff]
    intro m hm
    rw [bne_iff_ne]
    rintro rfl
    have hsome := hfields m hm
    rw [hname] at hsome
    cases hsome
  rw [Json.member?_normal hnodup, List.lookup_append, hknown, Option.none_or]
  cases hx : extra.lookup name with
  | none => rfl
  | some x =>
    have hmem := (Json.lookup_eq_some_iff_mem h.ascending.nodup).1 hx
    rw [Option.map_some, h.normal _ hmem]

/-- A part that is written is found in normal form. -/
theorem Json.member?_normal_known {known extra : List (String × Json)}
    (hdistinct : (Json.map (known ++ extra)).Distinct) {name : String} {x : Json}
    (hknown : known.lookup name = some x) :
    (Json.map (known ++ extra)).normal.member? name = some x.normal := by
  have hnodup := ((Json.distinct_map_iff _).1 hdistinct).1
  rw [Json.member?_normal hnodup, List.lookup_append, hknown]
  rfl

/-! ## Tables -/

/-- A table is written with null for what it did not have of its database, name and alias, and
otherwise holds what it held. -/
theorem Table.completes_of_read {room : Nat} {src : Source} {t : Table}
    (h : read (.direct room) src = .ok t) :
    Json.Completes ["db", "table", "as"] src.toJson t.toJson.normal := by
  obtain ⟨hspares, -⟩ := spares_of_readDirect h
  obtain ⟨members, fin, inner, rfl, hinner, hframe, hdatabase, hname, halias, hothers⟩ :=
    parts_of_read h
  obtain ⟨rest, rfl, rfl⟩ := Reading.enter_direct_eq_ok hinner
  have hdistinct := Table.distinct_toJson hspares
  have hstands := Record.stands_of_readMembers outline_separate hframe
  -- a text that is read is written under the name of its field, and null if there is none
  have hfield {place : Nat} {name : String} {s : Option String}
      (hf : Field.named place name ∈ outline.fields)
      (hread : (Record.byName members).optional (.named place name) Source.readText = .ok s)
      (hknown : t.known.lookup name = some (.ofText? s)) :
      t.toJson.normal.member? name
        = some (((Source.map members fin).toJson.member? name).getD .null) := by
    have hfaithful := Record.faithful_optional hf
      (Source.faithful_readOptional Source.faithful_readText Source.readText_null)
    have hstored := @hfaithful _ _ hstands rest s hread
    obtain ⟨hvalue, -⟩ := Record.optionalText_ofJson_iff.1 hstored
    have hsame : (Json.ofText? s).normal = .ofText? s := by cases s <;> rfl
    refine (Json.member?_normal_known hdistinct hknown).trans ?_
    rw [hsame, ← hvalue]
    exact congrArg (fun x => some (x.getD .null)) (Field.of?_named place name _)
  refine ⟨⟨_, rfl⟩, ⟨_, rfl⟩, ?_, ?_⟩
  · simp only [List.forall_mem_cons]
    refine ⟨hfield ?_ hdatabase rfl, hfield ?_ hname rfl, hfield ?_ halias rfl, by simp⟩
    all_goals simp [outline, Outline.record, databaseField, nameField, aliasField]
  · -- the other members are carried along, and they are written beside the fields
    intro name hother
    have hfind : outline.find? (.text name) = none :=
      (Outline.find?_eq_none_iff (by decide)).2 hother
    rw [← Record.lookup_others outline_separate hframe hfind, hothers]
    exact hspares.member?_append hdistinct t.find?_known hfind

/-! ## Statements -/

namespace Json

/-- A part is a list of the items, or it is null or absent and there are none. -/
def Holds (part : Option Json) (items : List Json) : Prop :=
  part = some (.list items) ∨ part.getD .null = .null ∧ items = []

/-- A value is a list whose items denote the values one by one. -/
def ListOf {α : Type} (denotes : Json → α → Prop) (v : Json) (values : List α) : Prop :=
  ∃ items, v = .list items ∧ List.Forall₂ denotes items values

/-- A part denotes a value, or is null or absent where there is none. -/
def Shows {α : Type} (denotes : Json → α → Prop) (part : Option Json) : Option α → Prop
  | none => part.getD .null = .null
  | some a => ∃ v, part = some v ∧ denotes v a

end Json

namespace Statement

/-- The names of the parts of a statement. -/
def partNames : List String :=
  ["type", "distinct", "columns", "from", "where", "groupby", "orderby", "limit"]

theorem names_outline : outline.names = partNames := rfl

/-- What of a statement stays through shaping, as finite maps: the parts that requests have nothing to
do with. -/
structure Carried (v w : Json) : Prop where
  distinct : w.member? "distinct" = some ((v.member? "distinct").getD .null)
  others : ∀ name, name ∉ partNames → w.member? name = v.member? name
  tables : ∃ xs ys, Json.Holds (v.member? "from") xs ∧ w.member? "from" = some (.list ys) ∧
    List.Forall₂ (Json.Completes ["db", "table", "as"]) xs ys
  items : ∃ xs ys, Json.Holds (v.member? "columns") xs ∧ w.member? "columns" = some (.list ys) ∧
    ∃ items, List.Forall₂ SelectItem.Fields xs items ∧ List.Forall₂ SelectItem.Fields ys items

end Statement

/-- The values of a list are read from the items of the list that a map holds in a field. -/
theorem Record.items_of_readListOrNull {α : Type} {o : Outline} {r : Record} {v : Json} {f : Field}
    {read : Reading → Source → Except ReadError α} {room : Nat} {values : List α}
    (hstands : Stands o r v) (hf : f ∈ o.fields)
    (h : r.withDefault f [] (Source.readListOrNull read (.direct room)) = .ok values) :
    ∃ xs inner, Json.Holds (f.of? v) xs ∧ List.Forall₂ (fun x a => ∃ src : Source, x = src.toJson ∧
      read (.direct inner) src = .ok a) xs values := by
  rw [hstands.fields f hf]
  rcases withDefault_eq_ok_iff.1 h with ⟨hnone, rfl⟩ | ⟨place, src, hfind, hread⟩
  · rw [hnone]
    exact ⟨[], 0, .inr ⟨rfl, rfl⟩, .nil⟩
  · rw [hfind]
    rcases Source.readListOrNull_eq_ok hread with ⟨rfl, rfl⟩ | hlist
    · exact ⟨[], 0, .inr ⟨rfl, rfl⟩, .nil⟩
    · obtain ⟨items, inner, rfl, hinner, hitems⟩ := Source.readList_eq_ok_iff.1 hlist
      obtain ⟨rest, rfl, rfl⟩ := Reading.enter_direct_eq_ok hinner
      refine ⟨Source.itemsToJson items, rest, .inl rfl, ?_⟩
      rw [Json.itemsToJson_eq_map, List.forall₂_map_left_iff]
      exact hitems.imp fun x a hx => ⟨x, rfl, hx⟩

/-- A part that may be absent denotes what it is read as. -/
theorem Record.shows_of_optional {α : Type} {o : Outline} {members : List (Quoted × Source)} {v : Json}
    {f : Field} {read : Reading → Source → Except ReadError α} {denotes : Json → α → Prop}
    {room : Nat} {part : Option α} (hstands : Stands o (byName members) v) (hf : f ∈ o.fields)
    (hdenotes : ∀ {src : Source} {a : α}, read (.direct room) src = .ok a → denotes src.toJson a)
    (h : (byName members).optional f (read (.direct room)) = .ok part) :
    Json.Shows denotes (f.of? v) part := by
  rw [hstands.fields f hf]
  rcases withDefault_eq_ok_iff.1 h with ⟨hnone, rfl⟩ | ⟨place, src, hfind, hread⟩
  · rw [hnone]
    rfl
  · rw [hfind]
    rcases Source.readOptional_eq_ok hread with ⟨rfl, rfl⟩ | ⟨-, a, ha, rfl⟩
    · rfl
    · exact ⟨src.toJson, rfl, hdenotes ha⟩

theorem Source.listOf_of_readList {α : Type} {read : Reading → Source → Except ReadError α}
    {denotes : Json → α → Prop} (hread : Faithful read)
    (hdenotes : ∀ {v : Json} {a : α}, read .stored v.toSource = .ok a → denotes v a) {room : Nat}
    {src : Source} {values : List α} (h : readList read (.direct room) src = .ok values) :
    Json.ListOf denotes src.toJson values := by
  obtain ⟨items, inner, hitems, hinner, hall⟩ := readList_toSource_iff.1 (faithful_readList hread h)
  obtain rfl := Except.ok.inj hinner
  exact ⟨items, hitems, hall.imp fun v a ha => hdenotes ha⟩

namespace Statement

section Read

variable {room : Nat} {members : List (Quoted × Source)} {fin : MapEnd} {st : Statement}

/-- A written part of a statement is found in normal form. -/
theorem member?_toJson {st : Statement} (h : st.Tidy) {name : String} {x : Json}
    (hknown : st.known.lookup name = some x) : st.toJson.normal.member? name = some x.normal :=
  Json.member?_normal_known h.distinct_toJson hknown

theorem normal_list {α : Type} (write : α → Json) (values : List α) :
    (Json.list (values.map write)).normal = .list (values.map fun a => (write a).normal) := by
  rw [Json.normal, Json.normalItems_eq_map, List.map_map]
  rfl

theorem member?_toJson_list {α : Type} {st : Statement} (h : st.Tidy) {name : String}
    {write : α → Json} {values : List α}
    (hknown : st.known.lookup name = some (.list (values.map write))) :
    st.toJson.normal.member? name = some (.list (values.map fun a => (write a).normal)) := by
  rw [member?_toJson h hknown, normal_list]

/-- What a statement is read from, and what a statement of the same frame is written as, agree in what
requests have nothing to do with. -/
theorem carried_of_read (h : Statement.read (.direct (room + 1)) (.map members fin) = .ok st)
    {st' : Statement} (htidy : st'.Tidy) (hsame : SameFrame st st') :
    Carried (Source.map members fin).toJson st'.toJson.normal := by
  obtain ⟨_, _, inner, hsrc, hinner, -, hdistinct, hitems, htables, -, -, -, -, hextra⟩ :=
    parts_of_read h
  obtain ⟨rfl, rfl⟩ := Source.map.inj hsrc
  obtain rfl := Except.ok.inj hinner
  have hframe := frame_of_read h
  have hstands := Record.stands_of_readMembers outline_separate hframe
  have hfield {f : Field} (hf : f ∈ [kindField, distinctField, itemsField, tablesField,
    conditionField, groupsField, orderField, windowField]) : f ∈ outline.fields := hf
  have hnamed (place : Nat) (name : String) := Field.of?_named place name
    (Json.ofMembers (Source.membersToJson members))
  refine ⟨?_, ?_, ?_, ?_⟩
  · -- the value that is carried along is the one that stands there
    have hvalue : (distinctField.of? (Source.map members fin).toJson).getD .null = st.distinct := by
      rw [hstands.fields _ (hfield (by simp))]
      rcases Record.withDefault_eq_ok_iff.1 hdistinct with ⟨hnone, hnull⟩ | ⟨place, x, hfind, hread⟩
      · rw [hnone]
        exact hnull
      · rw [hfind]
        exact Except.ok.inj (then_eq_ok_iff.1 hread).2
    refine (member?_toJson htidy rfl).trans ?_
    rw [htidy.distinct, hsame.distinct, ← hvalue]
    exact congrArg (fun x => some (x.getD .null)) (hnamed 1 "distinct")
  · -- so are the members under other names, beside the parts of the statement
    intro name hname
    have hfind : outline.find? (.text name) = none :=
      (Outline.find?_eq_none_iff (by decide)).2 hname
    rw [← Record.lookup_others outline_separate hframe hfind, hextra, ← hsame.extra]
    exact htidy.extra.member?_append htidy.distinct_toJson st'.find?_known hfind
  · -- each table is written as it was read, with its gaps filled
    obtain ⟨xs, inner, hholds, hread⟩ :=
      Record.items_of_readListOrNull hstands (hfield (by simp)) htables
    refine ⟨xs, _, hnamed 3 "from" ▸ hholds, member?_toJson_list htidy rfl, ?_⟩
    rw [hsame.tables, List.forall₂_map_right_iff]
    refine hread.imp fun x t ht => ?_
    obtain ⟨src, rfl, ht⟩ := ht
    exact Table.completes_of_read ht
  · -- the columns are compared through the items of the statement, which both sides denote
    obtain ⟨xs, inner, hholds, hread⟩ :=
      Record.items_of_readListOrNull hstands (hfield (by simp)) hitems
    refine ⟨xs, _, hnamed 2 "columns" ▸ hholds, member?_toJson_list htidy rfl, st.items, ?_, ?_⟩
    · refine hread.imp fun x item hitem => ?_
      obtain ⟨src, rfl, hitem⟩ := hitem
      exact SelectItem.read_iff.1 (SelectItem.faithful_read hitem)
    · rw [hsame.items, List.forall₂_map_left_iff, List.forall₂_same]
      intro item _
      exact item.fields_normal

/-- The order of a statement is what its value denotes. -/
theorem order_of_read (h : Statement.read (.direct (room + 1)) (.map members fin) = .ok st) :
    Json.Shows (Json.ListOf OrderEntry.Fields) ((Source.map members fin).toJson.member? "orderby")
      st.order := by
  have hstands := Record.stands_of_readMembers outline_separate (frame_of_read h)
  obtain ⟨_, _, inner, hsrc, hinner, -, -, -, -, -, -, horder, -⟩ := parts_of_read h
  obtain ⟨rfl, rfl⟩ := Source.map.inj hsrc
  obtain rfl := Except.ok.inj hinner
  have hshows := Record.shows_of_optional hstands (by simp [outline, Outline.record])
    (fun hread => Source.listOf_of_readList OrderEntry.faithful_read OrderEntry.read_iff.1 hread)
    horder
  exact (Field.of?_named 6 "orderby" _) ▸ hshows

/-- So is the window. -/
theorem window_of_read (h : Statement.read (.direct (room + 1)) (.map members fin) = .ok st) :
    Json.Shows Window.Fields ((Source.map members fin).toJson.member? "limit") st.window := by
  have hstands := Record.stands_of_readMembers outline_separate (frame_of_read h)
  obtain ⟨_, _, inner, hsrc, hinner, -, -, -, -, -, -, -, hwindow, -⟩ := parts_of_read h
  obtain ⟨rfl, rfl⟩ := Source.map.inj hsrc
  obtain rfl := Except.ok.inj hinner
  have hshows := Record.shows_of_optional hstands (by simp [outline, Outline.record])
    (fun hread => Window.read_iff.1 (Window.faithful_read hread)) hwindow
  exact (Field.of?_named 7 "limit" _) ▸ hshows

end Read

/-- They are what the written form of a statement denotes, too. -/
theorem Tidy.order_toJson {st : Statement} (h : st.Tidy) :
    Json.Shows (Json.ListOf OrderEntry.Fields) (st.toJson.normal.member? "orderby") st.order := by
  have hwritten : st.toJson.normal.member? "orderby"
      = some (Json.ofList? OrderEntry.toJson st.order).normal := member?_toJson h rfl
  rw [hwritten]
  cases st.order with
  | none => rfl
  | some entries =>
    refine ⟨_, rfl, entries.map fun e => e.toJson.normal, ?_, ?_⟩
    · exact normal_list OrderEntry.toJson entries
    · rw [List.forall₂_map_left_iff, List.forall₂_same]
      intro e _
      exact e.fields_normal

theorem Tidy.window_toJson {st : Statement} (h : st.Tidy) :
    Json.Shows Window.Fields (st.toJson.normal.member? "limit") st.window := by
  have hwritten : st.toJson.normal.member? "limit"
      = some ((st.window.map Window.toJson).getD .null).normal := member?_toJson h rfl
  rw [hwritten]
  cases st.window with
  | none => rfl
  | some w => exact ⟨_, rfl, w.fields_normal⟩

/-- The names that a statement is written with are those of its parts, and those of what is carried
along from its map. -/
theorem names_toJson {room : Nat} {members : List (Quoted × Source)} {fin : MapEnd}
    {st st' : Statement} (h : Statement.read (.direct (room + 1)) (.map members fin) = .ok st)
    (hsame : SameFrame st st') (name : String) :
    name ∈ (st'.known ++ st'.extra).map (·.1) ↔
      name ∈ partNames ∨ Quoted.text name ∈ members.map (·.1) := by
  obtain ⟨_, _, _, hsrc, -, -, -, -, -, -, -, -, -, hextra⟩ := parts_of_read h
  obtain ⟨rfl, rfl⟩ := Source.map.inj hsrc
  have hknown : st'.known.map (·.1) = partNames := rfl
  rw [List.map_append, List.mem_append, hknown, hsame.extra, ← hextra,
    Record.mem_names_others outline_separate (frame_of_read h),
    Outline.find?_eq_none_iff (by decide), names_outline]
  -- a name that is given is one of the parts or it is carried along
  by_cases hname : name ∈ partNames
  · exact iff_of_true (.inl hname) (.inl hname)
  · simp [hname]

end Statement

/-! ## Documents -/

namespace Document

/-- What an accepted document keeps of its statement. As finite maps, in which a name has the last of
its values, the statement that was read and the one whose text is returned agree in all that requests
have nothing to do with. The names of the returned statement are those of the parts of a statement and
those that were given, each once. The order denotes the same entries unless the request has an order,
and the window the same rows unless the request has a limit. -/
theorem shapeText_carried {pretty : Bool} {s out : String} (h : shapeText pretty s = .ok out) :
    ∃ (d : Document) (st : Statement) (members : List (Quoted × Source))
      (written : List (String × Json)),
      ofText s = .ok d ∧ d.shape = .ok st ∧ out = text pretty st ∧ st.toJson = .map written ∧
      (Source.ofChars s.toList).1.member? statementField = some (.map members .closed) ∧
      (written.map (·.1)).Nodup ∧
      (∀ name, name ∈ written.map (·.1) ↔
        name ∈ Statement.partNames ∨ Quoted.text name ∈ members.map (·.1)) ∧
      Statement.Carried (Source.map members .closed).toJson (Json.map written).normal ∧
      (d.request.order = [] → ∃ order : Option (List OrderEntry),
        Json.Shows (Json.ListOf OrderEntry.Fields)
          ((Source.map members .closed).toJson.member? "orderby") order ∧
        Json.Shows (Json.ListOf OrderEntry.Fields)
          ((Json.map written).normal.member? "orderby") order) ∧
      (d.request.limit = none → ∃ window : Option Window,
        Json.Shows Window.Fields ((Source.map members .closed).toJson.member? "limit") window ∧
        Json.Shows Window.Fields ((Json.map written).normal.member? "limit") window) := by
  obtain ⟨d, p, hd, hp, rfl⟩ := shapeText_eq_ok_iff.1 h
  obtain ⟨src, hsrc, hread⟩ := statement_of_ofText hd
  obtain ⟨members, fin, inner, rfl, hinner, hframe, -⟩ := Record.parts_of_readMap hread
  obtain ⟨rfl, -⟩ := Record.frame_of_readMembers Statement.outline_separate hframe
  have htidy := (Statement.tidy_of_read hread).apply hp
  have hsame := Statement.sameFrame_apply p d.statement
  obtain ⟨-, horder, hwindow, -⟩ := Request.patch_eq_ok_iff.1 hp
  have hshape : d.shape = .ok (p.apply d.statement) := shape_eq_ok_iff.2 ⟨p, hp, rfl⟩
  refine ⟨d, _, members, _, hd, hshape, rfl, rfl, hsrc, ?_, Statement.names_toJson hread hsame,
    Statement.carried_of_read hread htidy hsame, fun hnone => ⟨d.statement.order, ?_, ?_⟩,
    fun hnone => ⟨d.statement.window, ?_, ?_⟩⟩
  · exact ((Json.distinct_map_iff _).1 htidy.distinct_toJson).1
  · exact Statement.order_of_read hread
  · -- a request with no keys brings no entries, and then the patch leaves the order alone
    have hkept : (p.apply d.statement).order = d.statement.order := by
      rw [Patch.apply, horder, Request.orderEntries?, hnone]
      rfl
    exact hkept ▸ htidy.order_toJson
  · exact Statement.window_of_read hread
  · -- nor does it touch the window if there is no limit
    have hkept : (p.apply d.statement).window = d.statement.window := by
      rw [Patch.apply, hwindow, hnone]
      rfl
    exact hkept ▸ htidy.window_toJson

/-- A document with a hint that it gives twice and a lock on its table, and with a window at both
levels. -/
def hinted : Json :=
  .map [("limit", .number (.int (.ofUInt64 5))),
    ("queryAST", .map [("hint", .text "x"), ("type", .text "select"), ("hint", .text "y"),
      ("limit", .null), ("from", .list [.map [("table", .text "t"), ("lock", .bool true)]])])]

/-- The statement that it gives. -/
def hintedStatement : Statement :=
  { Statement.empty with
    tables := [⟨none, some "t", none, [("lock", .bool true)]⟩], extra := [("hint", .text "y")] }

/-- The last hint is returned, and the table with its lock. -/
theorem shapeText_carried_hinted :
    ∃ written : List (String × Json),
      shapeText false hinted.compact = .ok (Json.map written).compact ∧
      (Json.map written).normal.member? "hint" = some (.text "y") ∧
      ∃ table : Json, (Json.map written).normal.member? "from" = some (.list [table]) ∧
        table.member? "lock" = some (.bool true) ∧ table.member? "db" = some .null := by
  have hsource := @Source.ofChars_compact hinted (by decide)
  have hread : ofText hinted.compact = .ok
      ⟨{ Request.empty with limit := some ⟨5, by decide⟩ }, hintedStatement⟩ :=
    ofText_of_ofChars hsource rfl
  have hshaped : shapeText false hinted.compact = .ok (text false { hintedStatement with
      window := some ⟨0, 5⟩ }) := shapeText_eq_ok_iff.2 ⟨_, _, hread, rfl, rfl⟩
  obtain ⟨d, st, members, written, -, -, hout, hwritten, hmembers, -, -, hcarried, -, -⟩ :=
    shapeText_carried hshaped
  rw [hsource] at hmembers
  obtain ⟨rfl, -⟩ := Source.map.inj (Option.some.inj hmembers)
  have htext : text false st = (Json.map written).compact := congrArg Json.compact hwritten
  refine ⟨written, hshaped.trans (congrArg Except.ok (hout.trans htext)),
    (hcarried.others "hint" (by decide)).trans rfl, ?_⟩
  obtain ⟨xs, ys, hgiven | ⟨hnull, -⟩, hys, hall⟩ := hcarried.tables
  · obtain rfl := Json.list.inj (Option.some.inj hgiven)
    -- there is one table on each side
    cases hall with
    | cons htable hrest =>
      cases hrest
      exact ⟨_, hys, (htable.2.2.2 "lock" (by decide)).trans rfl,
        (htable.2.2.1 "db" (by decide)).trans rfl⟩
  · cases hnull

end Document

end QueryShaping
