import Mathlib.Data.List.Perm.Subperm
import QueryShaping.Proofs.Direct

/-!
# What texts stand for

A tree stands for a value in which the maps are finite: each name occurs once, with the last of its
values. A record names none of its fields twice, so it has the same values in its fields whether it is
read straight from the text or taken from the value that the text stands for.

## What this module delivers

- `Json.lookup_ofMembers`: a map in normal form holds the last value of each name.
- `Record.Stands`, `Record.stands_of_readMembers`: a record and the value that it stands for.
- `Source.Faithful`: a reader that reads from the value what it reads straight from the text.
- `Source.faithful_readList`, `Source.faithful_readChoice`, `Record.faithful_read`: the ways of
  building such readers.
- `Column.faithful_read`, `SelectItem.faithful_read`, `OrderEntry.faithful_read`,
  `Window.faithful_read`: the readers of the parts of statements that are built so.
-/

set_option autoImplicit false

namespace QueryShaping

/-! ## Looking up members -/

namespace Json

variable {members : List (String × Json)} {name : String}

theorem lookup_insertMember (name other : String) (value : Json) (members : List (String × Json)) :
    (insertMember name value members).lookup other
      = if other = name then some value else members.lookup other := by
  induction members with
  | nil => exact lookup_cons_eq (name, value) [] other
  | cons m rest ih =>
    obtain ⟨first, kept⟩ := m
    rw [insertMember]
    split
    · exact lookup_cons_eq (name, value) _ other
    split
    · next hname =>
      -- the value that is replaced is the one that would be found
      subst hname
      rw [lookup_cons_eq, lookup_cons_eq]
      split <;> rfl
    · next hname =>
      rw [lookup_cons_eq, lookup_cons_eq, ih]
      by_cases hfirst : other = first
      · have hother : other ≠ name := fun h => hname (h.symm.trans hfirst)
        rw [if_pos hfirst, if_pos hfirst, if_neg hother]
      · rw [if_neg hfirst, if_neg hfirst]

/-- Of several values of a name the last one stays. -/
theorem lookup_ofMembers (members : List (String × Json)) (name : String) :
    (ofMembers members).lookup name = members.reverse.lookup name := by
  -- the members that are in the map already stand behind those that are still to come
  have key : ∀ todo done : List (String × Json),
      (todo.foldl (fun done m => insertMember m.1 m.2 done) done).lookup name
        = (todo.reverse.lookup name).or (done.lookup name) := by
    intro todo
    induction todo with
    | nil => exact fun done => rfl
    | cons m rest ih =>
      intro done
      rw [List.foldl_cons, ih, lookup_insertMember, List.reverse_cons, List.lookup_append,
        lookup_cons_eq, Option.or_assoc]
      split <;> rfl
  refine (key members []).trans ?_
  rw [List.lookup_nil, Option.or_none]

/-- Where no name occurs twice the order of the members plays no part. -/
theorem lookup_eq_some_iff_mem (h : (members.map (·.1)).Nodup) {x : Json} :
    members.lookup name = some x ↔ (name, x) ∈ members := by
  induction members with
  | nil => simp
  | cons m rest ih =>
    obtain ⟨hm, hrest⟩ := List.nodup_cons.1 h
    rw [lookup_cons_eq, List.mem_cons]
    by_cases hname : name = m.1
    · rw [if_pos hname]
      constructor
      · intro hx
        exact .inl (Prod.ext hname (Option.some.inj hx).symm)
      · rintro (rfl | hmem)
        · rfl
        · have hmem := List.mem_map_of_mem (f := Prod.fst) hmem
          exact absurd hmem (hname ▸ hm)
    · rw [if_neg hname, ih hrest]
      constructor
      · exact .inr
      · rintro (rfl | hmem)
        · exact absurd rfl hname
        · exact hmem

theorem isSome_lookup_iff : (members.lookup name).isSome = true ↔ name ∈ members.map (·.1) := by
  rw [List.lookup_isSome_iff, List.mem_map]
  constructor
  · rintro ⟨m, hm, hname⟩
    exact ⟨m, hm, (beq_iff_eq.1 hname).symm⟩
  · rintro ⟨m, hm, rfl⟩
    exact ⟨m, hm, beq_self_eq_true m.1⟩

/-- Leaving out members of other names does not matter. -/
theorem lookup_filter {p : String → Bool} (h : p name = true) (members : List (String × Json)) :
    (members.filter fun m => p m.1).lookup name = members.lookup name := by
  induction members with
  | nil => rfl
  | cons m rest ih =>
    rw [lookup_cons_eq, List.filter_cons]
    split
    · rw [lookup_cons_eq, ih]
    · next hm =>
      have hname : name ≠ m.1 := by
        rintro rfl
        exact hm h
      rw [if_neg hname, ih]

theorem lookup_map_normal (members : List (String × Json)) (name : String) :
    (normalMembers members).lookup name = (members.lookup name).map normal := by
  induction members with
  | nil => rfl
  | cons m rest ih =>
    rw [normalMembers, lookup_cons_eq, lookup_cons_eq, ih]
    split <;> rfl

end Json

namespace Field

/-- A field with one name holds what the map holds under the name. -/
theorem of?_named (place : Nat) (name : String) (members : List (String × Json)) :
    (named place name).of? (.map members) = (Json.map members).member? name := by
  rw [of?_map]
  show _ = members.lookup name
  -- the field goes by its name alone, so both find the first member of the name
  induction members with
  | nil => rfl
  | cons m rest ih =>
    rw [lookup_cons_eq, List.find?_cons, ← ih]
    by_cases hname : name = m.1
    · rw [if_pos hname, named_goesBy_iff.2 hname.symm]
      rfl
    · have hother : (named place name).goesBy m.1 = false :=
        Bool.eq_false_iff.2 fun h => hname (named_goesBy_iff.1 h).symm
      rw [if_neg hname, hother]

/-- It holds nothing where no member has the name. -/
theorem of?_named_eq_none_iff {place : Nat} {name : String} {members : List (String × Json)} :
    (named place name).of? (.map members) = none ↔ name ∉ members.map (·.1) := by
  rw [of?_named, ← Json.isSome_lookup_iff, Option.not_isSome_iff_eq_none]
  rfl

end Field

/-! ## Records and values -/

namespace Outline

variable {o : Outline} {members : List (String × Json)} {f : Field}

/-- Normal form gives no field twice either. -/
theorem Fits.ofMembers (h : o.Fits (.map members)) : o.Fits (.map (Json.ofMembers members)) := by
  intro f hf
  have hnodup : ((Json.ofMembers members).filter fun m => f.goesBy m.1).Nodup :=
    (List.Nodup.of_map _ (Json.ascending_ofMembers members).nodup).filter _
  have hsubset : (Json.ofMembers members).filter (fun m => f.goesBy m.1)
      ⊆ members.filter fun m => f.goesBy m.1 := by
    intro m hm
    obtain ⟨hmem, hname⟩ := List.mem_filter.1 hm
    exact List.mem_filter.2 ⟨Json.mem_of_mem_ofMembers hmem, hname⟩
  exact Nat.le_trans (List.Nodup.subperm hnodup hsubset).length_le (h f hf)

/-- A field that is given once has the same value in normal form. -/
theorem Fits.of?_ofMembers (h : o.Fits (.map members)) (hf : f ∈ o.fields) :
    f.of? (.map (Json.ofMembers members)) = f.of? (.map members) := by
  apply Option.ext
  intro x
  rw [h.ofMembers.of?_eq_some_iff hf, h.of?_eq_some_iff hf]
  refine exists_congr fun name => and_congr_right fun hname => ⟨Json.mem_of_mem_ofMembers, ?_⟩
  intro hmem
  have hsome : ((Json.ofMembers members).lookup name).isSome = true := by
    rw [Json.lookup_ofMembers, Json.isSome_lookup_iff, List.map_reverse, List.mem_reverse]
    exact List.mem_map_of_mem hmem
  obtain ⟨y, hy⟩ := Option.isSome_iff_exists.1 hsome
  have hlast := (Json.lookup_eq_some_iff_mem (Json.ascending_ofMembers members).nodup).1 hy
  -- the last value of the name is its only one
  have hx := (h.of?_eq_some_iff hf).2 ⟨name, hname, hmem⟩
  have hy := (h.of?_eq_some_iff hf).2 ⟨name, hname, Json.mem_of_mem_ofMembers hlast⟩
  obtain rfl := Option.some.inj (hx.symm.trans hy)
  exact hlast

end Outline

namespace Record

variable {α β : Type} {o : Outline} {f : Field}

/-- A record stands for a value: they are lists or maps alike, and have the same in their fields. -/
structure Stands (o : Outline) (r : Record) (v : Json) : Prop where
  fits : o.Fits v
  isList : (∃ items, v = .list items) ↔ ∃ items, r = .byPlace o items
  fields : ∀ f ∈ o.fields, f.of? v = (r.find? f).map (·.2.toJson)

theorem find?_byName (members : List (Quoted × Source)) (f : Field) :
    ((byName members).find? f).map (·.2) = (members.find? fun m => f.matchesName m.1).map (·.2) := by
  rw [find?, List.find?_eq_bind_findIdx?_getElem?, Option.map_bind, Option.map_bind]
  simp only [Function.comp_def, Option.map_map]

/-- Members whose names are all texts. -/
theorem exists_named {members : List (Quoted × Source)} :
    ∀ {names : List String}, members.map (·.1) = names.map Quoted.text →
      ∃ named : List (String × Source), members = named.map fun m => (.text m.1, m.2) := by
  induction members with
  | nil => exact fun _ => ⟨[], rfl⟩
  | cons m rest ih =>
    intro names h
    cases names with
    | nil => cases h
    | cons name names =>
      obtain ⟨hm, hrest⟩ := List.cons.inj h
      obtain ⟨named, rfl⟩ := ih hrest
      exact ⟨(name, m.2) :: named, congrArg (· :: _) (Prod.ext hm rfl)⟩

/-- A map that is read stands for its value. -/
theorem stands_of_readMembers (ho : o.Separate) {keep : Bool} {way : Reading} {fin : MapEnd}
    {members : List (Quoted × Source)} (h : readMembers keep o way fin 0 [] members = .ok ()) :
    Stands o (byName members) (Source.map members fin).toJson := by
  obtain ⟨-, ⟨names, hnames, hfits⟩, -⟩ := frame_of_readMembers ho h
  obtain ⟨named, rfl⟩ := exists_named hnames
  have hnamed : Source.membersToJson (named.map fun m => (.text m.1, m.2))
      = named.map fun m => (m.1, m.2.toJson) := by
    rw [Json.membersToJson_eq_map, List.map_map]
    rfl
  have hmembers : o.Fits (.map (named.map fun m => (m.1, m.2.toJson))) := by
    refine Outline.fits_map names ?_ hfits
    rw [List.map_map] at hnames ⊢
    exact List.map_injective_iff.2 (fun _ _ => Quoted.text.inj) (by rw [List.map_map]; exact hnames)
  rw [Source.toJson, hnamed]
  refine ⟨hmembers.ofMembers, ?_, fun f hf => ?_⟩
  · constructor
    · rintro ⟨items, h⟩
      cases h
    · rintro ⟨items, h⟩
      cases h
  · have hfind := congrArg (Option.map Source.toJson)
      (find?_byName (named.map fun m => (.text m.1, m.2)) f)
    rw [Option.map_map, Option.map_map, List.find?_map, Option.map_map] at hfind
    rw [hmembers.of?_ofMembers hf, Field.of?_map, List.find?_map, Option.map_map]
    exact hfind.symm

/-- So does a list. -/
theorem stands_of_readItems {room : Nat} {fin : ListEnd} {items : List Source}
    (h : readItems o (.direct room) items fin = .ok ()) :
    Stands o (byPlace o items) (Source.list items fin).toJson := by
  have hlength : items.length ≤ o.fields.length := by
    by_cases hlt : items.length < o.fields.length
    · exact Nat.le_of_lt hlt
    · -- after the last field there is nothing but the end
      simp only [readItems, if_neg hlt, Placed.ofExcept_eq_ok_iff, readEnd] at h
      split at h
      · next hempty => exact List.drop_eq_nil_iff.1 (List.isEmpty_iff.1 hempty)
      · cases h
  rw [Source.toJson, Json.itemsToJson_eq_map]
  refine ⟨?_, ?_, fun f hf => ?_⟩
  · show (items.map Source.toJson).length ≤ o.fields.length
    rw [List.length_map]
    exact hlength
  · exact iff_of_true ⟨_, rfl⟩ ⟨_, rfl⟩
  · rw [Field.of?, Field.at?, find?, List.getElem?_map]
    cases items[f.place]? <;> rfl

end Record

/-! ## Faithful readers -/

variable {α β : Type}

/-- What a reader reads straight from a text, it reads from the value that the text stands for. -/
def Source.Faithful (read : Reading → Source → Except ReadError α) : Prop :=
  ∀ ⦃room : Nat⦄ ⦃src : Source⦄ ⦃a : α⦄, read (.direct room) src = .ok a →
    read .stored src.toJson.toSource = .ok a

namespace Source

variable {read : Reading → Source → Except ReadError α}

theorem readText_eq_ok {src : Source} {s : String} (h : readText src = .ok s) :
    src = .atom (.text (.text s)) := by
  unfold readText at h
  split at h
  · rw [Quoted.check_eq_ok_iff.1 h]
  · cases h

theorem faithful_readText : Faithful fun _ => readText := by
  intro room src s h
  rw [readText_eq_ok h]
  rfl

theorem readText_null (s : String) : readText (.atom .null) ≠ .ok s := by
  intro h
  cases h

theorem faithful_readAny : Faithful readAny := by
  intro room src v h
  obtain ⟨-, hv⟩ := then_eq_ok_iff.1 h
  obtain rfl : src.toJson = v := Except.ok.inj hv
  exact readAny_toSource_iff.2 ⟨trivial, src.normal_toJson⟩

/-- A reader that takes no null may be used for what is null or absent. -/
theorem faithful_readOptional (hread : Faithful read)
    (hnull : ∀ a, read .stored (.atom .null) ≠ .ok a) :
    Faithful fun way => readOptional (read way) := by
  intro room src a h
  rcases readOptional_eq_ok h with ⟨rfl, rfl⟩ | ⟨-, b, hb, rfl⟩
  · rfl
  · have hb := hread hb
    have hsrc : src.toJson.toSource ≠ .atom .null := by
      intro hsrc
      rw [hsrc] at hb
      exact hnull b hb
    show readOptional (read .stored) src.toJson.toSource = .ok (some b)
    rw [readOptional_of_ne_null hsrc, hb]
    rfl

theorem faithful_readList (hread : Faithful read) : Faithful (readList read) := by
  intro room src values h
  obtain ⟨items, inner, rfl, hinner, hitems⟩ := readList_eq_ok_iff.1 h
  obtain ⟨rest, rfl, rfl⟩ := Reading.enter_direct_eq_ok hinner
  refine readList_toSource_iff.2 ⟨itemsToJson items, .stored, rfl, rfl, ?_⟩
  rw [Json.itemsToJson_eq_map, List.forall₂_map_left_iff]
  exact hitems.imp fun x a hx => hread hx

theorem Faithful.bind (hread : Faithful read) (f : α → Except ReadError β) :
    Faithful fun way src => read way src >>= f := by
  intro room src b h
  obtain ⟨a, ha, hb⟩ := bind_eq_ok_iff.1 h
  exact bind_eq_ok_iff.2 ⟨a, hread ha, hb⟩

/-- A choice is read from its name, or from a map with the name as its only member. -/
theorem exists_of_readChoice {choices : List (String × α)} {room : Nat} {src : Source} {a : α}
    (h : readChoice choices false (.direct room) src = .ok a) :
    ∃ name, choices.lookup name = some a ∧
      (src = .atom (.text (.text name)) ∨ src = .map [(.text name, .atom .null)] .closed) := by
  cases src with
  | atom atom =>
    cases atom with
    | text q =>
      obtain ⟨name, hname, ha⟩ := bind_eq_ok_iff.1 h
      obtain rfl := Quoted.check_eq_ok_iff.1 hname
      exact ⟨name, chosen_eq_ok_iff.1 ha, .inl rfl⟩
    | _ => cases h
  | map members fin =>
    obtain ⟨inner, -, h⟩ := bind_eq_ok_iff.1 h
    cases members with
    | nil =>
      cases fin with
      | _ => cases h
    | cons m others =>
      obtain ⟨q, payload⟩ := m
      obtain ⟨name, hname, h⟩ := bind_eq_ok_iff.1 h
      obtain ⟨a', ha, h⟩ := bind_eq_ok_iff.1 h
      obtain ⟨hpayload, h⟩ := then_eq_ok_iff.1 h
      obtain ⟨hlast, h⟩ := then_eq_ok_iff.1 h
      obtain rfl := Except.ok.inj h
      obtain rfl := Quoted.check_eq_ok_iff.1 hname
      -- there is null beside the name, and nothing after it
      have hnull : payload = .atom .null := by
        unfold readNothing at hpayload
        split at hpayload
        · rfl
        · cases hpayload
        · cases hpayload
      obtain ⟨rfl, rfl⟩ : others = [] ∧ fin = .closed := by
        cases fin with
        | closed =>
          cases others with
          | nil => exact ⟨rfl, rfl⟩
          | cons other rest => cases hlast
        | _ => cases hlast
      exact ⟨name, chosen_eq_ok_iff.1 ha, .inr (by rw [hnull])⟩
  | _ => cases h

theorem faithful_readChoice (choices : List (String × α)) : Faithful (readChoice choices false) := by
  intro room src a h
  obtain ⟨name, ha, hsrc⟩ := exists_of_readChoice h
  refine readChoice_toSource_iff.2 ⟨name, ha, ?_⟩
  rcases hsrc with rfl | rfl
  · exact .inl rfl
  · exact .inr rfl

end Source

namespace Record

open Source

variable {o : Outline} {f : Field}

/-- What a reader of fields makes of a record, it makes of the value that the record stands for. -/
def Faithful (o : Outline) (get : Reading → Record → Placed α) : Prop :=
  ∀ ⦃r : Record⦄ ⦃v : Json⦄, Stands o r v → ∀ ⦃room : Nat⦄ ⦃a : α⦄,
    get (.direct room) r = .ok a → get .stored (ofJson o v) = .ok a

variable {read : Reading → Source → Except ReadError α}

theorem faithful_required (hf : f ∈ o.fields) (hread : Source.Faithful read) :
    Faithful o fun way r => r.required f (read way) := by
  intro r v hstands room a h
  obtain ⟨place, src, hfind, ha⟩ := required_eq_ok_iff.1 h
  refine required_ofJson_iff.2 ⟨src.toJson, ?_, hread ha⟩
  rw [hstands.fields f hf, hfind]
  rfl

theorem faithful_withDefault (hf : f ∈ o.fields) (default : α) (hread : Source.Faithful read) :
    Faithful o fun way r => r.withDefault f default (read way) := by
  intro r v hstands room a h
  refine withDefault_ofJson_iff.2 ?_
  rw [hstands.fields f hf]
  rcases withDefault_eq_ok_iff.1 h with ⟨hnone, rfl⟩ | ⟨place, src, hfind, ha⟩
  · exact .inl ⟨by rw [hnone]; rfl, rfl⟩
  · exact .inr ⟨src.toJson, by rw [hfind]; rfl, hread ha⟩

theorem faithful_optional (hf : f ∈ o.fields)
    (hread : Source.Faithful fun way => readOptional (read way)) :
    Faithful o fun way r => r.optional f (read way) := by
  intro r v hstands room a h
  cases r with
  | byName members =>
    have hlist : ∀ items, v ≠ .list items := by
      rintro items rfl
      obtain ⟨_, h⟩ := hstands.isList.1 ⟨items, rfl⟩
      cases h
    refine optional_ofJson_iff.2 ?_
    rcases withDefault_ofJson_iff.1 (faithful_withDefault hf none hread hstands h) with
      ⟨hnone, ha⟩ | hsome
    · exact .inl ⟨hnone, ha, hlist⟩
    · exact .inr hsome
  | byPlace o' items =>
    have hrequired := faithful_required hf hread hstands h
    exact optional_ofJson_iff.2 (.inr (required_ofJson_iff.1 hrequired))

theorem Faithful.map {get : Reading → Record → Placed α} (hget : Faithful o get) (g : α → β) :
    Faithful o fun way r => g <$> get way r := by
  intro r v hstands room b h
  obtain ⟨a, ha, rfl⟩ := Placed.map_eq_ok_iff.1 h
  exact Placed.map_eq_ok_iff.2 ⟨a, hget hstands ha, rfl⟩

theorem Faithful.seq {get : Reading → Record → Placed (α → β)} {next : Reading → Record → Placed α}
    (hget : Faithful o get) (hnext : Faithful o next) :
    Faithful o fun way r => get way r <*> next way r := by
  intro r v hstands room b h
  obtain ⟨g, a, hg, ha, rfl⟩ := Placed.seq_eq_ok_iff.1 h
  exact Placed.seq_eq_ok_iff.2 ⟨g, a, hget hstands hg, hnext hstands ha, rfl⟩

theorem faithful_read (ho : o.Separate) {body : Reading → Record → Placed α}
    (hbody : Faithful o body) : Source.Faithful (Record.read o body) := by
  intro room src a h
  cases src with
  | map members fin =>
    obtain ⟨inner, hinner, h⟩ := bind_eq_ok_iff.1 h
    obtain ⟨hframe, ha⟩ := frame_eq_ok_iff.1 h
    obtain ⟨rest, rfl, rfl⟩ := Reading.enter_direct_eq_ok hinner
    have hstands := stands_of_readMembers ho hframe
    exact (read_stored_iff ho body _ a).2 ⟨hstands.fits, hbody hstands ha⟩
  | list items fin =>
    obtain ⟨inner, hinner, h⟩ := bind_eq_ok_iff.1 h
    obtain ⟨hframe, ha⟩ := frame_eq_ok_iff.1 h
    obtain ⟨rest, rfl, rfl⟩ := Reading.enter_direct_eq_ok hinner
    have hstands := stands_of_readItems hframe
    exact (read_stored_iff ho body _ a).2 ⟨hstands.fits, hbody hstands ha⟩
  | _ => cases h

theorem faithful_readTuple (ho : o.Separate) {body : Reading → Record → Placed α}
    (hbody : Faithful o body) : Source.Faithful (readTuple o body) := by
  intro room src a h
  cases src with
  | list items fin =>
    have hread : Record.read o body (.direct room) (.list items fin) = .ok a := h
    exact faithful_read ho hbody hread
  | _ => cases h

end Record

/-! ## Parts of statements -/

open Source

theorem Column.faithful_read : Source.Faithful Column.read := by
  have htable := Record.faithful_optional (f := tableField) (o := outline)
    (by simp [outline, Outline.record]) (faithful_readOptional faithful_readText readText_null)
  have hname := Record.faithful_required (f := nameField) (o := outline)
    (by simp [outline, Outline.record]) faithful_readText
  exact Record.faithful_read outline_separate ((htable.map Column.mk).seq hname)

theorem Literal.faithful_read : Source.Faithful Literal.read := by
  have hkind := Record.faithful_required (f := kindField) (o := outline)
    (by simp [outline, Outline.record]) (faithful_readChoice Kind.choices)
  have hvalue := Record.faithful_withDefault (f := valueField) (o := outline)
    (by simp [outline, Outline.record]) .null faithful_readAny
  exact (Record.faithful_read outline_separate ((hkind.map Prod.mk).seq hvalue)).bind _

theorem SelectItem.faithful_read : Source.Faithful SelectItem.read := by
  have hcolumn := Record.faithful_required (f := columnField) (o := outline)
    (by simp [outline, Outline.record]) Column.faithful_read
  have halias := Record.faithful_withDefault (f := aliasField) (o := outline)
    (by simp [outline, Outline.record]) none (faithful_readOptional faithful_readText readText_null)
  exact Record.faithful_read outline_separate ((hcolumn.map SelectItem.mk).seq halias)

theorem Direction.faithful_read : Source.Faithful Direction.read := faithful_readChoice _

theorem OrderEntry.faithful_read : Source.Faithful OrderEntry.read := by
  have hcolumn := Record.faithful_required (f := columnField) (o := outline)
    (by simp [outline, Outline.record]) Column.faithful_read
  have hdirection := Record.faithful_required (f := directionField) (o := outline)
    (by simp [outline, Outline.record]) Direction.faithful_read
  exact Record.faithful_read outline_separate ((hcolumn.map OrderEntry.mk).seq hdirection)

theorem Window.faithful_read : Source.Faithful Window.read := by
  have hoffset := Record.faithful_required (f := offsetField) (o := outline)
    (by simp [outline]) Literal.faithful_read
  have hcount := Record.faithful_required (f := countField) (o := outline)
    (by simp [outline]) Literal.faithful_read
  exact (Record.faithful_readTuple outline_separate ((hoffset.map Prod.mk).seq hcount)).bind _

end QueryShaping
