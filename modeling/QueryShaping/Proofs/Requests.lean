import QueryShaping.Proofs.Nulls
import QueryShaping.Proofs.Untouched

/-!
# Requests as they are said in documents

A request is said by an object with a member for each of its parts. Parts that ask for nothing may
be null or absent, the members may stand in any order, and there may be others. A value of a filter
is said by itself, a tuple by a list, and a key of several attributes by the list of their names, so
the shape alone tells which of them is meant. What is said in this way is read as what was meant,
alone or beside a statement. Only one thing cannot be said: a limit for groups of rows that is null.

## What this module delivers

- `Request.Said`: that an object says a request.
- `Request.toJson`, `Request.said_toJson`: an object that says a request.
- `Request.Said.read`, `Document.request_beside`: what is said is read, alone and beside a statement.
- `Request.limitPer_ne_null`: no limit for groups is read as null.
- `Request.said_and_read`: every request can be said, and is read as it was said.
-/

set_option autoImplicit false

namespace QueryShaping

variable {α : Type}

/-! ## Values and attributes -/

theorem Literal.normal_value (l : Literal) : l.value.normal = l.value := by
  cases l <;> rfl

theorem Literal.ofBare?_value (l : Literal) : ofBare? l.value = some l := by
  cases l <;> rfl

namespace Json

/-- A list of what values are written as is in normal form if these are. -/
theorem normal_list_map {write : α → Json} (h : ∀ a, (write a).normal = write a) (as : List α) :
    (Json.list (as.map write)).normal = .list (as.map write) := by
  rw [normal, normalItems_eq_map, List.map_map]
  exact congrArg _ (List.map_congr_left fun a _ => h a)

end Json

/-- What is written one by one can be taken back one by one. -/
theorem mapM_map_eq_some {β : Type} {take : β → Option α} (write : α → β)
    (h : ∀ a, take (write a) = some a) (as : List α) : (as.map write).mapM take = some as := by
  induction as with
  | nil => rfl
  | cons a as ih =>
    rw [List.map_cons, List.mapM_cons, h, ih]
    rfl

/-- The written form of an attribute: its name, or the list of the names of a key. -/
def Attribute.toJson : Attribute → Json
  | .single name => .text name
  | .composite names => .list (names.map .text)

/-- The written form of an operand: its value, or the list of its tuples. -/
def Operand.toJson : Operand → Json
  | .scalar value => value.value
  | .tuples ts => .list (ts.map fun t => .list (t.map Literal.value))

theorem Attribute.ofJson?_toJson (a : Attribute) : ofJson? a.toJson.normal = some a := by
  cases a with
  | single name => rfl
  | composite names =>
    have hnames : namesOf? (names.map .text) = some names :=
      mapM_map_eq_some Json.text (fun _ => rfl) names
    rw [toJson, Json.normal_list_map (fun _ => rfl), ofJson?, hnames]
    rfl

/-- A bare value and a list are told apart by their shape, so no list is empty by mistake. -/
theorem Operand.ofJson?_toJson (o : Operand) : ofJson? o.toJson.normal = some o := by
  cases o with
  | scalar value =>
    rw [toJson, value.normal_value]
    cases value <;> rfl
  | tuples tuples =>
    have hnormal (t : List Literal) :
        (Json.list (t.map Literal.value)).normal = .list (t.map Literal.value) :=
      Json.normal_list_map Literal.normal_value t
    have htuple (t : List Literal) : tupleOf? (.list (t.map Literal.value)) = some t :=
      mapM_map_eq_some _ Literal.ofBare?_value t
    rw [toJson, Json.normal_list_map hnormal, ofJson?, mapM_map_eq_some _ htuple]
    rfl

theorem Attribute.read_toJson {way : Reading} (a : Attribute) (hroom : way.HasRoom a.toJson) :
    read way a.toJson.toSource = .ok a := by
  refine bind_eq_ok_iff.2 ⟨_, Source.readAny_toSource_iff.2 ⟨hroom, rfl⟩, ?_⟩
  simp only [ofJson?_toJson]
  rfl

theorem Operand.read_toJson {way : Reading} (o : Operand) (hroom : way.HasRoom o.toJson) :
    read way o.toJson.toSource = .ok o := by
  refine bind_eq_ok_iff.2 ⟨_, Source.readAny_toSource_iff.2 ⟨hroom, rfl⟩, ?_⟩
  simp only [ofJson?_toJson]
  rfl

/-- A comparison is said by its name. -/
theorem Comparison.read_name (way : Reading) (c : Comparison) :
    read way (Json.text c.name).toSource = .ok c := by
  cases way <;> cases c <;> rfl

/-! ## What an object says -/

/-- A value is an object that names no member twice. -/
def Json.IsObject (v : Json) : Prop := ∃ members, v = .map members ∧ (members.map (·.1)).Nodup

/-- An object says a key of the order. Its direction is said in any letter case. -/
structure SortKey.Said (v : Json) (key : SortKey) : Prop where
  object : v.IsObject
  name : v.member? "attribute" = some (.text key.name)
  direction : ∃ s, v.member? "direction" = some (.text s) ∧
    Direction.ofText? s = some key.direction

/-- An object says a condition. -/
structure Condition.Said (v : Json) (c : Condition) : Prop where
  object : v.IsObject
  target : v.member? "attribute" = some c.target.toJson
  comparison : v.member? "operator" = some (.text c.comparison.name)
  operand : v.member? "value" = some c.operand.toJson

/-- A value is said by itself, in whatever order it lists members; null says nothing. -/
def Json.SaysValue (v w : Json) : Prop := v ≠ .null ∧ v.normal = w

/-- The number that says a size or a page. -/
def Positive.toJson (p : Positive) : Json := .number (.int (.ofUInt64 p.val.toUInt64))

/-- An object says a request. Parts that ask for nothing are null or absent, or empty lists. -/
structure Request.Said (v : Json) (req : Request) : Prop where
  object : v.IsObject
  order : ∃ xs, Json.Holds (v.member? "order") xs ∧ List.Forall₂ SortKey.Said xs req.order
  limit : Json.Shows (fun x p => x = Positive.toJson p) (v.member? "limit") req.limit
  page : Json.Shows (fun x p => x = Positive.toJson p) (v.member? "page") req.page
  filter : ∃ xs, Json.Holds (v.member? "filter") xs ∧
    List.Forall₂ (Json.ListOf Condition.Said) xs req.filter
  searchable : ∃ xs, Json.Holds (v.member? "searchable") xs ∧
    List.Forall₂ (fun x s => x = .text s) xs req.searchable
  search : Json.Shows (fun x s => x = .text s) (v.member? "search") req.search
  limitPer : Json.Shows Json.SaysValue (v.member? "limitPer") req.limitPer

/-! ## Reading what is said -/

/-- A number that says a size or a page is read as that. -/
theorem Positive.read_toJson (p : Positive) : read p.toJson.toSource = .ok p := by
  have hval : (WideInt.ofUInt64 p.val.toUInt64).val = (p.val.toNat : Int) := by
    simp [WideInt.ofUInt64]
  have hpos : 0 < p.val.toNat :=
    Nat.pos_of_ne_zero fun hzero => p.ne_zero (UInt32.toNat_inj.1 hzero)
  have hlt := p.val.toNat_lt
  have hint : ofInt? (WideInt.ofUInt64 p.val.toUInt64).val = some p := by
    rw [hval, ofInt?, if_pos (by omega), Int.toNat_natCast, UInt32.ofNat_toNat, ofUInt32?,
      dif_neg p.ne_zero]
  rw [toJson, Json.toSource, read, hint]

/-- A list that is said is read as the values that its items say. -/
theorem Json.ListOf.read {denotes : Json → α → Prop} {read : Reading → Source → Except ReadError α}
    {way : Reading} {v : Json} {as : List α} (h : Json.ListOf denotes v as) (hroom : way.HasRoom v)
    (hread : ∀ inner x a, inner.HasRoom x → denotes x a → read inner x.toSource = .ok a) :
    Source.readList read way v.toSource = .ok as := by
  obtain ⟨items, rfl, hall⟩ := h
  obtain ⟨inner, henter, hin⟩ := hroom.enter (Nat.succ_pos _)
  refine Source.readList_toSource_iff.2 ⟨items, inner, rfl, henter, ?_⟩
  rw [List.forall₂_iff_get] at hall ⊢
  exact ⟨hall.1, fun i hi hj => hread _ _ _ (hin _ (List.get_mem ..)) (hall.2 i hi hj)⟩

namespace Record

variable {o : Outline} {v : Json} {f : Field} {denotes : Json → α → Prop}

/-- A part that may be null is read as what it shows. -/
theorem withDefault_of_shows {read : Source → Except ReadError α} {a : Option α}
    (h : Json.Shows denotes (f.of? v) a)
    (hread : ∀ x b, f.of? v = some x → denotes x b → x ≠ .null ∧ read x.toSource = .ok b) :
    (ofJson o v).withDefault f none (Source.readOptional read) = .ok a := by
  rw [withDefault_ofJson_iff]
  cases a with
  | none =>
    cases hx : f.of? v with
    | none => exact .inl ⟨rfl, rfl⟩
    | some x =>
      obtain rfl : x = .null := by simpa [Json.Shows, hx] using h
      exact .inr ⟨_, rfl, rfl⟩
  | some b =>
    obtain ⟨x, hx, hb⟩ := h
    obtain ⟨hnull, hb⟩ := hread x b hx hb
    exact .inr ⟨x, hx, Source.readOptional_toSource_iff.2 (.inr ⟨hnull, b, hb, rfl⟩)⟩

/-- A part that is a list is read as the values that its items denote. -/
theorem withDefault_of_holds {read : Reading → Source → Except ReadError α} {way : Reading}
    {xs : List Json} {as : List α} (h : Json.Holds (f.of? v) xs)
    (hall : List.Forall₂ denotes xs as) (hroom : ∀ x, f.of? v = some x → way.HasRoom x)
    (hread : ∀ inner x a, inner.HasRoom x → denotes x a → read inner x.toSource = .ok a) :
    (ofJson o v).withDefault f [] (Source.readListOrNull read way) = .ok as := by
  rw [withDefault_ofJson_iff]
  rcases h with hlist | ⟨hnull, rfl⟩
  · have hread := Json.ListOf.read ⟨xs, rfl, hall⟩ (hroom _ hlist) hread
    refine .inr ⟨_, hlist, ?_⟩
    show (·.getD []) <$> some <$> Source.readList read way (Json.list xs).toSource = _
    rw [hread]
    rfl
  · cases hall
    cases hx : f.of? v with
    | none => exact .inl ⟨rfl, rfl⟩
    | some x =>
      obtain rfl : x = .null := by simpa [hx] using hnull
      exact .inr ⟨_, rfl, rfl⟩

end Record

theorem Json.IsObject.fits {o : Outline} {v : Json} (h : v.IsObject)
    (halias : ∀ f ∈ o.fields, f.aliases = []) : o.Fits v := by
  obtain ⟨members, rfl, hnames⟩ := h
  exact Outline.fits_map_of_nodup halias hnames

theorem Json.IsObject.of?_named {v : Json} (h : v.IsObject) (place : Nat) (name : String) :
    (Field.named place name).of? v = v.member? name := by
  obtain ⟨members, rfl, -⟩ := h
  exact Field.of?_named place name members

/-- An object is read as a record if its fields are. -/
theorem Record.read_of_isObject {o : Outline} (ho : o.Separate)
    (halias : ∀ f ∈ o.fields, f.aliases = []) {body : Reading → Record → Placed α} {way : Reading}
    {v : Json} {a : α} (h : v.IsObject) (hroom : way.HasRoom v)
    (hbody : ∀ inner : Reading, (∀ f ∈ o.fields, ∀ x, f.of? v = some x → inner.HasRoom x) →
      body inner (ofJson o v) = .ok a) :
    Record.read o body way v.toSource = .ok a := by
  have hfits := h.fits halias
  obtain ⟨inner, henter, hin⟩ := hroom.enter hfits.depth_pos
  refine (Record.read_toSource_iff ho hroom).2 ⟨hfits, inner, henter, hbody inner ?_⟩
  exact fun f _ x hx => hin x (Field.mem_parts_of_of? hx)

theorem SortKey.Said.read {v : Json} {key : SortKey} (h : Said v key) {way : Reading}
    (hroom : way.HasRoom v) : SortKey.read way v.toSource = .ok key := by
  refine Record.read_of_isObject outline_separate (by decide) h.object hroom fun inner _ => ?_
  obtain ⟨s, hs, hdirection⟩ := h.direction
  have hname : nameField.of? v = some (.text key.name) := (h.object.of?_named 0 _).trans h.name
  have hs : directionField.of? v = some (.text s) := (h.object.of?_named 1 _).trans hs
  have hread : readDirection (Json.text s).toSource = .ok key.direction := by
    refine bind_eq_ok_iff.2 ⟨s, rfl, ?_⟩
    simp only [hdirection]
    rfl
  simp only [Placed.seq_eq_ok_iff, Placed.map_eq_ok_iff, Record.required_ofJson_iff]
  exact ⟨_, _, ⟨_, ⟨_, hname, rfl⟩, rfl⟩, ⟨_, hs, hread⟩, rfl⟩

theorem Condition.Said.read {v : Json} {c : Condition} (h : Said v c) {way : Reading}
    (hroom : way.HasRoom v) : Condition.read way v.toSource = .ok c := by
  refine Record.read_of_isObject outline_separate (by decide) h.object hroom fun inner hin => ?_
  have htarget : targetField.of? v = some c.target.toJson := (h.object.of?_named 0 _).trans h.target
  have hcomparison : comparisonField.of? v = some (.text c.comparison.name) :=
    (h.object.of?_named 1 _).trans h.comparison
  have hoperand : operandField.of? v = some c.operand.toJson :=
    (h.object.of?_named 2 _).trans h.operand
  have hmem {f : Field} (hf : f ∈ [targetField, comparisonField, operandField]) :
      f ∈ outline.fields := hf
  simp only [Placed.seq_eq_ok_iff, Placed.map_eq_ok_iff, Record.required_ofJson_iff]
  refine ⟨_, _, ⟨_, _, ⟨_, ⟨_, htarget, ?_⟩, rfl⟩, ⟨_, hcomparison, ?_⟩, rfl⟩,
    ⟨_, hoperand, ?_⟩, rfl⟩
  · exact c.target.read_toJson (hin _ (hmem (by simp)) _ htarget)
  · exact Comparison.read_name _ c.comparison
  · exact c.operand.read_toJson (hin _ (hmem (by simp)) _ hoperand)

namespace Request

theorem Said.read {v : Json} {req : Request} (h : Said v req) {way : Reading}
    (hroom : way.HasRoom v) : Request.read way v.toSource = .ok req := by
  refine Record.read_of_isObject outline_separate (by decide) h.object hroom fun inner hin => ?_
  have hmem {f : Field} (hf : f ∈ [orderField, limitField, pageField, filterField, searchableField,
    searchField, limitPerField]) : f ∈ outline.fields := hf
  have hof (place : Nat) (name : String) := (h.object.of?_named place name).symm
  obtain ⟨xs, hxs, hkeys⟩ := h.order
  obtain ⟨ys, hys, hgroups⟩ := h.filter
  obtain ⟨zs, hzs, hnames⟩ := h.searchable
  have hpositive {f : Field} {p : Option Positive}
      (hp : Json.Shows (fun x p => x = Positive.toJson p) (f.of? v) p) :
      (Record.ofJson outline v).withDefault f none (Source.readOptional Positive.read) = .ok p := by
    refine Record.withDefault_of_shows hp ?_
    rintro x p - rfl
    exact ⟨nofun, p.read_toJson⟩
  have horder : (Record.ofJson outline v).withDefault orderField []
      (Source.readListOrNull SortKey.read inner) = .ok req.order :=
    Record.withDefault_of_holds (hof 0 "order" ▸ hxs) hkeys (hin _ (hmem (by simp)))
      fun _ _ _ hroom hkey => hkey.read hroom
  have hlimit := hpositive (f := limitField) (hof 1 "limit" ▸ h.limit)
  have hpage := hpositive (f := pageField) (hof 2 "page" ▸ h.page)
  have hfilter : (Record.ofJson outline v).withDefault filterField []
      (Source.readListOrNull (Source.readList Condition.read) inner) = .ok req.filter :=
    Record.withDefault_of_holds (hof 3 "filter" ▸ hys) hgroups (hin _ (hmem (by simp)))
      fun _ _ _ hroom hgroup => hgroup.read hroom fun _ _ _ hroom hc => hc.read hroom
  have hsearchable : (Record.ofJson outline v).withDefault searchableField []
      (Source.readListOrNull (fun _ => Source.readText) inner) = .ok req.searchable := by
    refine Record.withDefault_of_holds (hof 4 "searchable" ▸ hzs) hnames (hin _ (hmem (by simp))) ?_
    rintro _ _ s - rfl
    rfl
  have hsearch : (Record.ofJson outline v).withDefault searchField none
      (Source.readOptional Source.readText) = .ok req.search := by
    refine Record.withDefault_of_shows (hof 5 "search" ▸ h.search) ?_
    rintro x s - rfl
    exact ⟨nofun, rfl⟩
  have hlimitPer : (Record.ofJson outline v).withDefault limitPerField none
      (Source.readOptional (Source.readAny inner)) = .ok req.limitPer := by
    refine Record.withDefault_of_shows (hof 6 "limitPer" ▸ h.limitPer) ?_
    rintro x w hx ⟨hnull, hw⟩
    exact ⟨hnull, Source.readAny_toSource_iff.2 ⟨hin _ (hmem (by simp)) x hx, hw⟩⟩
  simp only [horder, hlimit, hpage, hfilter, hsearchable, hsearch, hlimitPer]
  rfl

/-! ## Saying a request -/

/-- Whether a limit for groups of rows can be said: it is not null, and in normal form as all values
are that are carried along. -/
def Sayable (req : Request) : Prop := ∀ w, req.limitPer = some w → w ≠ .null ∧ w.normal = w

end Request

/-- The name of a direction in requests. -/
def Direction.name : Direction → String
  | .ascending => "asc"
  | .descending => "desc"

theorem Direction.ofText?_name (d : Direction) : ofText? d.name = some d := by
  cases d <;> decide

/-- An object that says a key of the order. -/
def SortKey.toJson (key : SortKey) : Json :=
  .map [("attribute", .text key.name), ("direction", .text key.direction.name)]

/-- An object that says a condition. -/
def Condition.toJson (c : Condition) : Json :=
  .map [("attribute", c.target.toJson), ("operator", .text c.comparison.name),
    ("value", c.operand.toJson)]

/-- An object that says a request, with null for what is not asked for. -/
def Request.toJson (req : Request) : Json :=
  .map [("order", .list (req.order.map SortKey.toJson)),
    ("limit", (req.limit.map Positive.toJson).getD .null),
    ("page", (req.page.map Positive.toJson).getD .null),
    ("filter", .list (req.filter.map fun g => .list (g.map Condition.toJson))),
    ("searchable", .list (req.searchable.map .text)), ("search", .ofText? req.search),
    ("limitPer", req.limitPer.getD .null)]

theorem SortKey.said_toJson (key : SortKey) : Said key.toJson key :=
  ⟨⟨_, rfl, by simp⟩, rfl, _, rfl, key.direction.ofText?_name⟩

theorem Condition.said_toJson (c : Condition) : Said c.toJson c :=
  ⟨⟨_, rfl, by simp⟩, rfl, rfl, rfl⟩

theorem Json.listOf_map {denotes : Json → α → Prop} {write : α → Json}
    (h : ∀ a, denotes (write a) a) (as : List α) : ListOf denotes (.list (as.map write)) as :=
  ⟨_, rfl, List.forall₂_map_left_iff.2 (List.forall₂_same.2 fun a _ => h a)⟩

theorem Json.shows_map {denotes : Json → α → Prop} (write : α → Json)
    (h : ∀ a, denotes (write a) a) (a : Option α) :
    Shows denotes (some ((a.map write).getD .null)) a := by
  cases a with
  | none => rfl
  | some a => exact ⟨_, rfl, h a⟩

/-- Every request can be said, unless it asks for a limit for groups that is null. -/
theorem Request.said_toJson {req : Request} (h : req.Sayable) : Said req.toJson req where
  object := ⟨_, rfl, by simp⟩
  order := ⟨_, .inl rfl, List.forall₂_map_left_iff.2
    (List.forall₂_same.2 fun key _ => key.said_toJson)⟩
  limit := Json.shows_map Positive.toJson (fun _ => rfl) req.limit
  page := Json.shows_map Positive.toJson (fun _ => rfl) req.page
  filter := ⟨_, .inl rfl, List.forall₂_map_left_iff.2
    (List.forall₂_same.2 fun g _ => Json.listOf_map Condition.said_toJson g)⟩
  searchable := ⟨_, .inl rfl, List.forall₂_map_left_iff.2 (List.forall₂_same.2 fun _ _ => rfl)⟩
  search := by
    show Json.Shows _ (some (.ofText? req.search)) req.search
    cases req.search with
    | none => rfl
    | some s => exact ⟨_, rfl, rfl⟩
  limitPer := by
    show Json.Shows Json.SaysValue (some (req.limitPer.getD .null)) req.limitPer
    cases hlimit : req.limitPer with
    | none => rfl
    | some w => exact ⟨w, rfl, h w hlimit⟩

/-! ## Documents -/

/-- A request is read from a text that says it. -/
theorem Request.Said.readString {v : Json} {req : Request} (h : Said v req)
    (hroom : Reading.whole.HasRoom v) {s : String}
    (hs : Source.ofChars s.toList = (v.toSource, false)) :
    QueryShaping.readString Request.read s = .ok req := by
  rw [QueryShaping.readString, readChars, hs]
  show (Request.read .whole v.toSource >>= fun a => _) = _
  rw [h.read hroom]
  rfl

namespace Document

/-- A document with a statement among other members. -/
def beside (before : List (String × Json)) (statement : Source) (after : List (String × Json)) :
    Source :=
  .map (Json.membersToSource before ++ (.text "queryAST", statement) :: Json.membersToSource after)
    .closed

section Beside

variable {before after : List (String × Json)} {statement : Source} {way inner : Reading}
  {st : Statement} {req : Request}

theorem absent_membersToSource {name : String} (h : name ∉ (before ++ after).map (·.1)) :
    ∀ m ∈ Json.membersToSource before ++ Json.membersToSource after, m.1 ≠ .text name := by
  rw [← Json.membersToSource_append]
  exact Json.ne_of_mem_membersToSource h

/-- Values that there is room for are read where nothing else is. -/
theorem readOther_toSource {v : Json} (h : way.HasRoom v) :
    Record.readOther true way v.toSource = .ok () := by
  cases way with
  | stored => rfl
  | direct room => exact Source.check_toSource_iff.2 h

/-- Beside a statement all members can be read. -/
theorem readMembers_beside (hnames : "queryAST" ∉ (before ++ after).map (·.1))
    (hin : ∀ m ∈ before ++ after, inner.HasRoom m.2) :
    Record.readMembers true outline inner .closed 0 []
      (Json.membersToSource before ++ (.text "queryAST", statement) :: Json.membersToSource after)
        = .ok () := by
  have habsent := absent_membersToSource hnames
  refine (Record.readMembers_eq_ok_iff outline_separate).2 ⟨rfl, ?_, ?_, ?_⟩
  · simp only [Json.membersToSource_eq_map, List.forall_mem_append, List.forall_mem_cons,
      List.forall_mem_map]
    exact ⟨fun m _ => ⟨_, rfl⟩, ⟨_, rfl⟩, fun m _ => ⟨_, rfl⟩⟩
  · -- no other member goes by the name of the statement
    have halias : ∀ f ∈ outline.fields, f.aliases = [] := by decide
    refine (Record.fitsMembers_added halias habsent).2 fun f hf =>
      (List.countP_eq_zero.2 ?_).trans_le (Nat.zero_le _)
    obtain rfl := List.mem_singleton.1 hf
    rw [List.forall_mem_map]
    exact fun m hm hgoes => habsent m hm ((Record.matchesName_iff rfl).1 hgoes)
  · have hother : ∀ m ∈ Json.membersToSource (before ++ after),
        Record.readOther true inner m.2 = .ok () := by
      rw [Json.membersToSource_eq_map, List.forall_mem_map]
      exact fun m hm => readOther_toSource (hin m hm)
    rw [Json.membersToSource_append, List.forall_mem_append] at hother
    rw [List.forall_mem_append, List.forall_mem_cons]
    have hfield : outline.find? (.text "queryAST") ≠ none := by decide
    exact ⟨fun m hm _ => hother.1 m hm, fun hnone => absurd hnone hfield,
      fun m hm _ => hother.2 m hm⟩

/-- The statement is read beside a request. -/
theorem readMap_beside (hnames : "queryAST" ∉ (before ++ after).map (·.1))
    (hroom : way.HasRoom (.map (before ++ after))) (henter : way.enter = .ok inner)
    (hst : Statement.read inner statement = .ok st) :
    Record.readMap outline (fun way r _ => r.required statementField (Statement.read way)) way
      (beside before statement after) = .ok st := by
  have hin : ∀ m ∈ before ++ after, inner.HasRoom m.2 :=
    List.forall_mem_map.1 (hroom.of_enter (Nat.succ_pos _) henter)
  have habsent := List.forall_mem_append.1 (absent_membersToSource hnames)
  have hvalue : Record.value? (Json.membersToSource before ++
      (.text "queryAST", statement) :: Json.membersToSource after) statementField
        = some statement := by
    rw [Record.value?_append, Record.value?_eq_none_of_absent rfl habsent.1, Record.value?_cons]
    rfl
  refine (Record.readMap_of_frame henter (readMembers_beside hnames hin)).trans ?_
  rw [Placed.toExcept_eq_ok_iff]
  exact Record.required_eq_ok_iff.2 (Record.exists_find?_iff.2 ⟨statement, hvalue, hst⟩)

/-- The request of a document is read as it is said. -/
theorem request_beside (h : Request.Said (.map (before ++ after)) req)
    (hnames : "queryAST" ∉ (before ++ after).map (·.1)) :
    Request.read .stored (beside before statement after) = .ok req := by
  -- whatever the statement is, the request is read as if it were null, and so as if it were absent
  let c : Source.Changes := ⟨["queryAST"], [("queryAST", fun _ _ => True)]⟩
  have hadded : Source.Altered c
      (.map (Json.membersToSource before ++ Json.membersToSource after) .closed)
      (beside before (.atom .null) after) :=
    .added List.mem_cons_self (absent_membersToSource hnames)
  have hany :
      Source.Altered c (beside before (.atom .null) after) (beside before statement after) :=
    .inside List.mem_cons_self trivial
  have hread := h.read (Reading.hasRoom_stored _)
  rw [Json.toSource, Json.membersToSource_append] at hread
  rw [← Request.read_altered_iff (by simp [c]) hany,
    ← Request.read_altered_iff (by simp [c]) hadded]
  exact hread

end Beside

end Document

/-! ## The limit for groups of rows -/

theorem Json.normal_eq_null_iff {v : Json} : v.normal = .null ↔ v = .null := by
  cases v <;> simp [normal]

/-- What says a value does not say null. -/
theorem Json.Shows.ne_null {part : Option Json} {w : Option Json} (h : Shows SaysValue part w) :
    w ≠ some .null := by
  rintro rfl
  obtain ⟨x, -, hne, hnormal⟩ := h
  exact hne (normal_eq_null_iff.1 hnormal)

/-- Nothing is said exactly where there is null or nothing. -/
theorem Json.Shows.eq_none_iff {part : Option Json} {w : Option Json} (h : Shows SaysValue part w) :
    w = none ↔ part.getD .null = .null := by
  cases w with
  | none => exact iff_of_true rfl h
  | some w =>
    obtain ⟨x, rfl, hne, -⟩ := h
    exact iff_of_false nofun hne

/-- What is read to its end stands for null only if it is null. -/
theorem Source.eq_null_of_check {src : Source} {room : Nat} (h : src.check room = .ok ())
    (hnull : src.toJson = .null) : src = .atom .null := by
  obtain ⟨v, rfl⟩ := Source.exists_toSource_of_check src room h
  rw [Json.toJson_toSource, Json.normal_eq_null_iff] at hnull
  rw [hnull]
  rfl

/-- A value that may be null is not read as null, if it was read to its end. -/
theorem Source.readOptional_readAny_ne_null {way : Reading} {src : Source}
    (hstored : way = .stored → ∃ room, src.check room = .ok ()) :
    readOptional (readAny way) src ≠ .ok (some .null) := by
  intro h
  rcases readOptional_eq_ok h with ⟨-, hnone⟩ | ⟨hne, w, hw, hsome⟩
  · cases hnone
  · obtain rfl := Option.some.inj hsome
    obtain ⟨hwhole, hjson⟩ := then_eq_ok_iff.1 hw
    have hcheck : ∃ room, src.check room = .ok () := by
      cases way with
      | direct room => exact ⟨room, hwhole⟩
      | stored => exact hstored rfl
    obtain ⟨room, hcheck⟩ := hcheck
    exact hne (eq_null_of_check hcheck (Except.ok.inj hjson))

/-- A tree as a record. -/
def Record.ofSource (o : Outline) : Source → Record
  | .map members _ => .byName members
  | .list items _ => .byPlace o items
  | _ => .byName []

/-- What is read as a record is read from its fields. -/
theorem Record.exists_body_of_read {o : Outline} {body : Reading → Record → Placed α}
    {way : Reading} {src : Source} {a : α} (h : Record.read o body way src = .ok a) :
    ∃ inner, way.enter = .ok inner ∧ body inner (ofSource o src) = .ok a := by
  cases src with
  | map members fin =>
    obtain ⟨inner, henter, h⟩ := bind_eq_ok_iff.1 h
    exact ⟨inner, henter, (frame_eq_ok_iff.1 h).2⟩
  | list items fin =>
    obtain ⟨inner, henter, h⟩ := bind_eq_ok_iff.1 h
    exact ⟨inner, henter, (frame_eq_ok_iff.1 h).2⟩
  | _ => cases h

namespace Request

variable {way : Reading} {src : Source} {req : Request}

/-- The limit for groups of rows of what is read is read in its field. -/
theorem exists_limitPer_of_read (h : read way src = .ok req) :
    ∃ inner, way.enter = .ok inner ∧
      (Record.ofSource outline src).withDefault limitPerField none
        (Source.readOptional (Source.readAny inner)) = .ok req.limitPer := by
  obtain ⟨inner, henter, hbody⟩ := Record.exists_body_of_read h
  simp only [Placed.seq_eq_ok_iff, Placed.map_eq_ok_iff] at hbody
  obtain ⟨_, limitPer, ⟨_, _, ⟨_, _, ⟨_, _, ⟨_, _, ⟨_, _, ⟨_, -, rfl⟩, -, rfl⟩, -, rfl⟩, -, rfl⟩, -,
    rfl⟩, -, rfl⟩, hlimitPer, rfl⟩ := hbody
  exact ⟨inner, henter, hlimitPer⟩

/-- It is not read as null, if it is read from the text or was read to its end. -/
theorem limitPer_ne_null (h : read way src = .ok req)
    (hstored : way = .stored → ∀ place x,
      (Record.ofSource outline src).find? limitPerField = some (place, x) →
        ∃ room, x.check room = .ok ()) : req.limitPer ≠ some .null := by
  intro hnull
  obtain ⟨inner, henter, hlimitPer⟩ := exists_limitPer_of_read h
  rw [hnull] at hlimitPer
  rcases Record.withDefault_eq_ok_iff.1 hlimitPer with ⟨-, hnone⟩ | ⟨place, x, hfind, hread⟩
  · cases hnone
  · refine Source.readOptional_readAny_ne_null (fun hinner => ?_) hread
    exact hstored (Source.eq_stored_of_enter henter hinner) place x hfind

/-- Of a value it is the one that is said, and there is none where it is null or absent. -/
theorem shows_limitPer {v : Json} (h : read way v.toSource = .ok req) :
    Json.Shows Json.SaysValue (limitPerField.of? v) req.limitPer := by
  obtain ⟨inner, -, hlimitPer⟩ := exists_limitPer_of_read h
  have hrecord : Record.ofSource outline v.toSource = Record.ofJson outline v := by
    cases v <;> rfl
  rw [hrecord, Record.withDefault_ofJson_iff] at hlimitPer
  rcases hlimitPer with ⟨hnone, hdefault⟩ | ⟨x, hx, hread⟩
  · rw [hnone, ← hdefault]
    rfl
  · rw [hx]
    rcases Source.readOptional_toSource_iff.1 hread with ⟨rfl, hnone⟩ | ⟨hnull, w, hw, hsome⟩
    · rw [← hnone]
      rfl
    · rw [← hsome]
      exact ⟨x, rfl, hnull, (Source.readAny_toSource_iff.1 hw).2⟩

end Request

namespace Document

/-- Nor is it in the request of a document, all of which but the statement was read to its end. -/
theorem limitPer_ne_null {room : Nat} {src : Source} {d : Document}
    (h : read (.direct room) src = .ok d) : d.request.limitPer ≠ some .null := by
  obtain ⟨st, hst, hrest⟩ := bind_eq_ok_iff.1 h
  obtain ⟨req, hreq, hsame⟩ := bind_eq_ok_iff.1 hrest
  obtain rfl := Except.ok.inj hsame
  obtain ⟨ms, fin, inner, rfl, henter, hframe, -⟩ := Record.parts_of_readMap hst
  obtain ⟨rest, -, rfl⟩ := Reading.enter_direct_eq_ok henter
  obtain ⟨-, -, -, hothers⟩ := (Record.readMembers_eq_ok_iff outline_separate).1 hframe
  refine Request.limitPer_ne_null hreq fun _ place x hfind => ?_
  obtain ⟨q, hq, hname⟩ := Record.exists_mem_of_find? hfind
  have hfield : Request.limitPerField ∈ Request.outline.fields := by
    simp [Request.outline, Outline.record]
  exact ⟨rest, hothers (q, x) hq (find?_eq_none hfield hname)⟩

end Document

/-! ## Everything together -/

theorem exists_of_readString {read : Reading → Source → Except ReadError α} {s : String} {a : α}
    (h : readString read s = .ok a) : read .whole (Source.ofChars s.toList).1 = .ok a := by
  rw [readString, readChars] at h
  generalize Source.ofChars s.toList = found at h ⊢
  obtain ⟨src, surplus⟩ := found
  obtain ⟨b, hb, hsame⟩ := bind_eq_ok_iff.1 h
  cases surplus with
  | true => cases hsame
  | false =>
    obtain rfl := Except.ok.inj hsame
    exact hb

/-- Every request can be said by an object, unless it asks for a limit for groups that is null. What
says it is read as that request, from a store or from a text. With a statement put anywhere among
its members, it is read as a document with that request and that statement. And nothing is read as a
request with a limit for groups that is null: where it is null, there is none. -/
theorem Request.said_and_read (req : Request) (h : req.Sayable) :
    Said req.toJson req ∧
    (∀ v, Said v req → ∀ way : Reading, way.HasRoom v →
      Request.read way v.toSource = .ok req ∧
      ∀ s, way = .whole → Source.ofChars s.toList = (v.toSource, false) →
        readString Request.read s = .ok req) ∧
    (∀ before after, Said (.map (before ++ after)) req → "queryAST" ∉ (before ++ after).map (·.1) →
      ∀ (way inner : Reading) statement st, way.HasRoom (.map (before ++ after)) →
        way.enter = .ok inner → Statement.read inner statement = .ok st →
        Document.read way (Document.beside before statement after) = .ok ⟨req, st⟩ ∧
        ∀ s, way = .whole →
          Source.ofChars s.toList = (Document.beside before statement after, false) →
            Document.ofText s = .ok ⟨req, st⟩) ∧
    (∀ s r, readString Request.read s = .ok r → r.limitPer ≠ some .null) ∧
    (∀ s d, Document.ofText s = .ok d → d.request.limitPer ≠ some .null) ∧
    (∀ way (v : Json) r, Request.read way v.toSource = .ok r → r.limitPer ≠ some .null ∧
      (r.limitPer = none ↔ (limitPerField.of? v).getD .null = .null)) ∧
    ∀ way (v : Json) d, Document.read way v.toSource = .ok d → d.request.limitPer ≠ some .null ∧
      (d.request.limitPer = none ↔ (limitPerField.of? v).getD .null = .null) := by
  refine ⟨said_toJson h, fun v hv way hroom => ⟨hv.read hroom, ?_⟩, ?_, ?_, ?_, ?_, ?_⟩
  · rintro s rfl hs
    exact hv.readString hroom hs
  · intro before after hsaid hnames way inner statement st hroom henter hst
    have hread : Document.read way (Document.beside before statement after) = .ok ⟨req, st⟩ := by
      rw [Document.read, Document.readMap_beside hnames hroom henter hst]
      show (Request.read .stored _ >>= fun req => _) = _
      rw [Document.request_beside hsaid hnames]
      rfl
    refine ⟨hread, ?_⟩
    rintro s rfl hs
    exact Document.ofText_of_ofChars hs hread
  · intro s r hr
    exact limitPer_ne_null (exists_of_readString hr) fun hstored => absurd hstored (by decide)
  · exact fun s d hd => Document.limitPer_ne_null (Document.ofText_eq_ok_iff.1 hd).2
  · intro way v r hr
    exact ⟨(shows_limitPer hr).ne_null, (shows_limitPer hr).eq_none_iff⟩
  · intro way v d hd
    obtain ⟨st, -, hrest⟩ := bind_eq_ok_iff.1 hd
    obtain ⟨r, hr, hsame⟩ := bind_eq_ok_iff.1 hrest
    obtain rfl := Except.ok.inj hsame
    exact ⟨(shows_limitPer hr).ne_null, (shows_limitPer hr).eq_none_iff⟩

namespace Request

/-- A request with a key compared with no tuple and with several, an empty group, an empty search
and a limit for groups. -/
def everything : Request where
  order := [⟨"a", .descending⟩]
  limit := some ⟨20, by decide⟩
  page := some ⟨2, by decide⟩
  filter := [[⟨.single "a", .notEqual, .scalar .null⟩, ⟨.composite [], .equal, .tuples []⟩],
    [⟨.composite ["a", "b"], .equal, .tuples [[], [.text "x", .null]]⟩], []]
  searchable := ["a"]
  search := some ""
  limitPer := some (.map [("count", .null)])

/-- It is read as it is said, alone and beside a statement. -/
theorem said_and_read_everything :
    everything.Sayable ∧ Request.read .whole everything.toJson.toSource = .ok everything ∧
      ∃ members, everything.toJson = .map members ∧
        Document.read .whole
          (Document.beside [] (Json.map [("type", .text "select")]).toSource members)
            = .ok ⟨everything, .empty⟩ := by
  have hsayable : everything.Sayable := by
    rintro w hw
    obtain rfl := Option.some.inj hw
    exact ⟨nofun, rfl⟩
  have hroom : Reading.whole.HasRoom everything.toJson := by
    show everything.toJson.depth ≤ 127
    decide
  obtain ⟨hsaid, hread, hdocument, -⟩ := said_and_read everything hsayable
  refine ⟨hsayable, (hread _ hsaid .whole hroom).1, _, rfl, ?_⟩
  have hst : Statement.read (.direct 126) (Json.map [("type", .text "select")]).toSource
      = .ok .empty := rfl
  exact (hdocument [] _ hsaid (by decide) .whole _ _ _ hroom rfl hst).1

end Request

end QueryShaping
