import Mathlib.Data.List.Pairwise
import QueryShaping.Expr.Written
import QueryShaping.Proofs.Success
import QueryShaping.Proofs.Values
import QueryShaping.Source.Record

/-!
# Values read as records

A reader that tries one meaning after another reads values that were stored before. For such values
reading a record comes down to a few facts about the value itself: that it is a map which names no
field twice, or a list which is not too long, and what its fields hold.

## What this module delivers

- `Outline.Fits`, `Field.of?`: whether a value has the shape of a record, and what it holds in a
  field.
- `Record.read_stored_iff`: reading a record succeeds exactly if the value fits the outline and the
  reader of the fields succeeds.
- `Record.requiredAt_ofJson_iff`, `Record.withDefault_ofJson_iff`, `Record.optional_ofJson_iff`: the
  readers of single fields.
- `Source.readText_toSource_iff`, `Source.readChoice_toSource_iff` and the like: the readers of plain
  values.
-/

set_option autoImplicit false

namespace QueryShaping

/-! ## Results with places -/

namespace Placed

variable {α β : Type}

theorem seq_eq_ok_iff {f : Placed (α → β)} {x : Placed α} {b : β} :
    f <*> x = .ok b ↔ ∃ g a, f = .ok g ∧ x = .ok a ∧ g a = b := by
  show Placed.seq f x = .ok b ↔ _
  cases f with
  | ok g =>
    cases x with
    | ok a => simp [Placed.seq]
    | fault p e => simp [Placed.seq]
  | fault p e =>
    cases x with
    | ok a => simp [Placed.seq]
    | fault q e' =>
      -- whichever fault is kept, it is no result
      show (if q < p then fault q e' else fault p e) = .ok b ↔ _
      split <;> simp

theorem map_eq_ok_iff {g : α → β} {x : Placed α} {b : β} :
    g <$> x = .ok b ↔ ∃ a, x = .ok a ∧ g a = b := by
  show pure g <*> x = .ok b ↔ _
  rw [seq_eq_ok_iff]
  constructor
  · rintro ⟨_, a, hg, hx, rfl⟩
    cases hg
    exact ⟨a, hx, rfl⟩
  · rintro ⟨a, hx, rfl⟩
    exact ⟨g, a, rfl, hx, rfl⟩

theorem toExcept_eq_ok_iff {x : Placed α} {a : α} : x.toExcept = .ok a ↔ x = .ok a := by
  cases x <;> simp [toExcept]

theorem ofExcept_eq_ok_iff {place : Nat} {x : Except ReadError α} {a : α} :
    ofExcept place x = .ok a ↔ x = .ok a := by
  cases x <;> simp [ofExcept]

end Placed

/-! ## Plain values -/

theorem Quoted.check_eq_ok_iff {q : Quoted} {s : String} : q.check = .ok s ↔ q = .text s := by
  cases q <;> simp [Quoted.check]

theorem ListEnd.check_eq_ok_iff {fin : ListEnd} : fin.check = .ok () ↔ fin = .closed := by
  cases fin <;> simp [ListEnd.check]

theorem MapEnd.check_eq_ok_iff {fin : MapEnd} : fin.check = .ok () ↔ fin = .closed := by
  cases fin <;> simp [MapEnd.check]

/-- A value names a choice: it is the name, or a map with the name as its only member and null beside
it. -/
def Json.Chooses (v : Json) (name : String) : Prop := v = .text name ∨ v = .map [(name, .null)]

namespace Source

variable {α : Type}

theorem readText_toSource_iff {v : Json} {s : String} :
    readText v.toSource = .ok s ↔ v = .text s := by
  cases v <;> simp [Json.toSource, readText, Quoted.check]

theorem readBool_toSource_iff {v : Json} {b : Bool} :
    readBool v.toSource = .ok b ↔ v = .bool b := by
  cases v <;> simp [Json.toSource, readBool]

theorem readAny_toSource (v : Json) : readAny .stored v.toSource = .ok v.normal := by
  rw [readAny, Json.toJson_toSource]
  rfl

theorem readOptional_toSource_iff {read : Source → Except ReadError α} {v : Json} {a : Option α} :
    readOptional read v.toSource = .ok a ↔
      v = .null ∧ none = a ∨ v ≠ .null ∧ ∃ b, read v.toSource = .ok b ∧ some b = a := by
  by_cases hv : v = .null
  · subst hv
    simp [Json.toSource, readOptional]
  · have hread : readOptional read v.toSource = some <$> read v.toSource := by
      cases v with
      | null => exact absurd rfl hv
      | _ => rfl
    rw [hread, map_eq_ok_iff]
    simp only [hv, false_and, ne_eq, not_false_eq_true, true_and, false_or]

theorem readOptionalText_iff {v : Json} {s : Option String} :
    readOptional readText v.toSource = .ok s ↔ v = .ofText? s := by
  rw [readOptional_toSource_iff]
  cases s with
  | none => simp [Json.ofText?]
  | some s =>
    simp only [readText_toSource_iff, Json.ofText?]
    constructor
    · rintro (⟨-, h⟩ | ⟨-, t, ht, h⟩)
      · cases h
      · obtain rfl := Option.some.inj h
        exact ht
    · rintro rfl
      exact .inr ⟨nofun, s, rfl, rfl⟩

/-- Looking up one of several choices that are listed with their names. -/
theorem lookup_named_eq_some_iff {name : α → String} {choices : List α}
    (h : (choices.map name).Nodup) {s : String} {a : α} :
    (choices.map fun c => (name c, c)).lookup s = some a ↔ a ∈ choices ∧ name a = s := by
  induction choices with
  | nil => simp
  | cons c rest ih =>
    rw [List.map_cons, List.nodup_cons] at h
    rw [List.map_cons, List.lookup_cons]
    by_cases hs : s = name c
    · subst hs
      simp only [beq_self_eq_true, Option.some.injEq, List.mem_cons]
      constructor
      · rintro rfl
        exact ⟨Or.inl rfl, rfl⟩
      · rintro ⟨rfl | ha, hname⟩
        · rfl
        · exact absurd (hname ▸ List.mem_map_of_mem ha) h.1
    · have hbeq : (s == name c) = false := by simpa using hs
      simp only [hbeq, ih h.2, List.mem_cons]
      constructor
      · rintro ⟨ha, hname⟩
        exact ⟨Or.inr ha, hname⟩
      · rintro ⟨rfl | ha, hname⟩
        · exact absurd hname.symm hs
        · exact ⟨ha, hname⟩

theorem chosen_eq_ok_iff {choices : List (String × α)} {name : String} {a : α} :
    chosen choices name = .ok a ↔ choices.lookup name = some a := by
  unfold chosen
  cases choices.lookup name <;> simp

/-- A stored choice is a value that names it. -/
theorem readChoice_toSource_iff {choices : List (String × α)} {v : Json} {a : α} :
    readChoice choices false .stored v.toSource = .ok a ↔
      ∃ name, choices.lookup name = some a ∧ v.Chooses name := by
  cases v with
  | text s =>
    show chosen choices s = .ok a ↔ _
    rw [chosen_eq_ok_iff]
    simp [Json.Chooses]
  | map members =>
    match members with
    | [] => simp [Json.toSource, Json.membersToSource, readChoice, readChoiceStored, Json.Chooses]
    | [(name, payload)] =>
      show (do
        let a ← chosen choices name
        readNothing false payload.toSource
        return a) = .ok a ↔ _
      rw [bind_eq_ok_iff]
      simp only [chosen_eq_ok_iff]
      -- a map without members is no payload here
      have hnothing : readNothing false payload.toSource = .ok () ↔ payload = .null := by
        cases payload with
        | map members => cases members <;> simp [Json.toSource, Json.membersToSource, readNothing]
        | _ => simp [Json.toSource, readNothing]
      constructor
      · rintro ⟨a', ha, h⟩
        obtain ⟨u, hu, h⟩ := bind_eq_ok_iff.1 h
        obtain rfl := Except.ok.inj h
        exact ⟨name, ha, Or.inr (by rw [hnothing.1 hu])⟩
      · rintro ⟨name', ha, h | h⟩
        · cases h
        · simp only [Json.map.injEq, List.cons.injEq, Prod.mk.injEq, and_true] at h
          obtain ⟨rfl, hpayload⟩ := h
          exact ⟨a, ha, bind_eq_ok_iff.2 ⟨(), hnothing.2 hpayload, rfl⟩⟩
    | _ :: _ :: _ =>
      simp [Json.toSource, Json.membersToSource, readChoice, readChoiceStored, Json.Chooses]
  | _ => simp [Json.toSource, readChoice, readChoiceStored, Json.Chooses]

/-- Of choices that are listed with their names, a stored value gives the one that it names. -/
theorem readChoice_named_iff {name : α → String} {choices : List α}
    (h : (choices.map name).Nodup) {v : Json} {a : α} :
    readChoice (choices.map fun c => (name c, c)) false .stored v.toSource = .ok a ↔
      a ∈ choices ∧ v.Chooses (name a) := by
  rw [readChoice_toSource_iff]
  simp only [lookup_named_eq_some_iff h]
  constructor
  · rintro ⟨_, ⟨ha, rfl⟩, hv⟩
    exact ⟨ha, hv⟩
  · rintro ⟨ha, hv⟩
    exact ⟨name a, ⟨ha, rfl⟩, hv⟩

end Source

/-! ## Fields of a value -/

/-- Where at most one item of a list satisfies a condition, any two that do are the same. -/
theorem eq_of_length_filter_le_one {α : Type} {p : α → Bool} {xs : List α}
    (h : (xs.filter p).length ≤ 1) {x y : α} (hx : x ∈ xs) (hpx : p x = true) (hy : y ∈ xs)
    (hpy : p y = true) : x = y := by
  have hx := List.mem_filter.2 ⟨hx, hpx⟩
  have hy := List.mem_filter.2 ⟨hy, hpy⟩
  match hfilter : xs.filter p with
  | [] =>
    rw [hfilter] at hx
    cases hx
  | [z] =>
    rw [hfilter, List.mem_singleton] at hx hy
    rw [hx, hy]
  | _ :: _ :: _ =>
    rw [hfilter] at h
    simp at h

namespace Field

/-- The value that a record holds in a field, and its place: the first member of that name, or the
item at the place of the field. -/
def at? (f : Field) : Json → Option (Nat × Json)
  | .map members =>
    (members.findIdx? fun m => f.goesBy m.1).bind fun i => members[i]?.map fun m => (i, m.2)
  | .list items => items[f.place]?.map fun x => (f.place, x)
  | _ => none

/-- The value that a record holds in a field. -/
def of? (f : Field) (v : Json) : Option Json := (f.at? v).map (·.2)

theorem of?_eq_some_iff {f : Field} {v x : Json} :
    f.of? v = some x ↔ ∃ place, f.at? v = some (place, x) := by
  simp [of?]

/-- The value that a map holds in a field is that of the first member whose name the field goes
by. -/
theorem of?_map (f : Field) (members : List (String × Json)) :
    f.of? (.map members) = (members.find? fun m => f.goesBy m.1).map (·.2) := by
  rw [of?, at?, List.find?_eq_bind_findIdx?_getElem?, Option.map_bind, Option.map_bind]
  simp only [Function.comp_def, Option.map_map]

theorem goesBy_iff {f : Field} {name : String} :
    f.goesBy name = true ↔ name = f.name ∨ name ∈ f.aliases := by
  simp [goesBy]

theorem named_goesBy_iff {place : Nat} {name other : String} :
    (named place name).goesBy other = true ↔ other = name := by
  simp [goesBy, named]

end Field

namespace Outline

/-- A value has the shape of a record: a map that gives no field twice, or a list that has no more
items than there are fields. -/
def Fits (o : Outline) : Json → Prop
  | .map members => ∀ f ∈ o.fields, (members.filter fun m => f.goesBy m.1).length ≤ 1
  | .list items => items.length ≤ o.fields.length
  | _ => False

/-- No two fields share a name. -/
def Separate (o : Outline) : Prop := (o.fields.flatMap fun f => f.name :: f.aliases).Nodup

instance (o : Outline) : Decidable o.Separate :=
  inferInstanceAs (Decidable (List.Nodup _))

theorem Separate.eq_of_goesBy {o : Outline} (h : o.Separate) {f g : Field} (hf : f ∈ o.fields)
    (hg : g ∈ o.fields) {name : String} (hfn : f.goesBy name = true)
    (hgn : g.goesBy name = true) : f = g := by
  by_contra hne
  -- the lists of names of different fields have no name in common
  have : Std.Symm (Function.onFun List.Disjoint fun f : Field => f.name :: f.aliases) :=
    ⟨fun _ _ hd _ hg hf => hd hf hg⟩
  have hdisjoint := (List.nodup_flatMap.1 h).2.forall hf hg hne
  exact hdisjoint (List.mem_cons.2 (Field.goesBy_iff.1 hfn))
    (List.mem_cons.2 (Field.goesBy_iff.1 hgn))

theorem Separate.find?_eq_some_iff {o : Outline} (h : o.Separate) {f : Field} {name : String} :
    o.find? (.text name) = some f ↔ f ∈ o.fields ∧ f.goesBy name = true := by
  constructor
  · intro hf
    have hfind : o.fields.find? (·.matchesName (.text name)) = some f := hf
    have hname := List.find?_some hfind
    exact ⟨List.mem_of_find?_eq_some hfind, hname⟩
  · rintro ⟨hmem, hname⟩
    cases hfind : o.find? (.text name) with
    | none =>
      have hnone := List.find?_eq_none.1 hfind f hmem
      exact absurd hname hnone
    | some g =>
      have hfind' : o.fields.find? (·.matchesName (.text name)) = some g := hfind
      have hg := List.find?_some hfind'
      rw [h.eq_of_goesBy hmem (List.mem_of_find?_eq_some hfind') hname hg]

/-- In a map that gives no field twice, a field holds the value of any member of one of its names. -/
theorem Fits.of?_eq_some_iff {o : Outline} {members : List (String × Json)} {f : Field} {x : Json}
    (h : o.Fits (.map members)) (hf : f ∈ o.fields) :
    f.of? (.map members) = some x ↔ ∃ name, f.goesBy name = true ∧ (name, x) ∈ members := by
  rw [Field.of?_map]
  constructor
  · intro hx
    obtain ⟨⟨name, _⟩, hfind, rfl⟩ := Option.map_eq_some_iff.1 hx
    have hname := List.find?_some hfind
    exact ⟨name, hname, List.mem_of_find?_eq_some hfind⟩
  · rintro ⟨name, hname, hmem⟩
    cases hfind : members.find? fun m => f.goesBy m.1 with
    | none => exact absurd hname (List.find?_eq_none.1 hfind _ hmem)
    | some m =>
      -- at most one member goes by the names of the field, and this is one
      have hm := List.find?_some hfind
      rw [eq_of_length_filter_le_one (h f hf) (List.mem_of_find?_eq_some hfind) hm hmem hname]
      rfl

theorem Fits.named_of?_eq_some_iff {o : Outline} {members : List (String × Json)} {place : Nat}
    {name : String} {x : Json} (h : o.Fits (.map members))
    (hf : Field.named place name ∈ o.fields) :
    (Field.named place name).of? (.map members) = some x ↔ (name, x) ∈ members := by
  simp [h.of?_eq_some_iff hf, Field.named_goesBy_iff]

end Outline

/-! ## Reading records -/

namespace Record

variable {α : Type}

/-- A value as a record. -/
def ofJson (o : Outline) : Json → Record
  | .map members => .byName (Json.membersToSource members)
  | .list items => .byPlace o (Json.itemsToSource items)
  | _ => .byName []

/-- A field that was seen counts as one more member that gives it. -/
def seenCount (seen : List Field) (f : Field) : Nat :=
  if seen.any (·.name == f.name) then 1 else 0

/-- The members of a stored map are read without fault exactly if they give no field twice, those
counted that were seen before. -/
theorem readMembers_stored_iff {o : Outline} (h : o.Separate) (keep : Bool)
    (members : List (String × Json)) :
    ∀ (place : Nat) (seen : List Field),
      readMembers keep o .stored .closed place seen (Json.membersToSource members) = .ok () ↔
        ∀ f ∈ o.fields,
          (members.filter fun m => f.goesBy m.1).length + seenCount seen f ≤ 1 := by
  induction members with
  | nil =>
    intro place seen
    refine ⟨fun _ f _ => ?_, fun _ => rfl⟩
    unfold seenCount
    split <;> simp
  | cons m rest ih =>
    intro place seen
    obtain ⟨name, value⟩ := m
    rw [Json.membersToSource, readMembers]
    cases hfind : o.find? (.text name) with
    | none =>
      -- the name denotes no field, so the member counts for none
      have hmember : readMember keep o .stored seen (.text name) value.toSource = .ok seen := by
        simp [readMember, Quoted.check, hfind, readOther, bind, Except.bind, pure, Except.pure]
      rw [hmember]
      simp only
      rw [ih]
      refine forall₂_congr fun f hf => ?_
      have hname : f.goesBy name = false := by
        rw [Bool.eq_false_iff]
        exact fun hg => by simp [h.find?_eq_some_iff.2 ⟨hf, hg⟩] at hfind
      simp [hname]
    | some f₀ =>
      obtain ⟨hf₀, hname₀⟩ := h.find?_eq_some_iff.1 hfind
      cases hseen : seen.any (·.name == f₀.name) with
      | true =>
        -- the field was seen before: this is the fault, and its count exceeds one
        have hmember : readMember keep o .stored seen (.text name) value.toSource
            = .error (.mismatch (.repeatedField f₀.name)) := by
          simp [readMember, Quoted.check, hfind, hseen, bind, Except.bind]
        rw [hmember]
        simp only [reduceCtorEq, false_iff, not_forall]
        refine ⟨f₀, hf₀, ?_⟩
        simp [hname₀, seenCount, hseen]
      | false =>
        -- from here on the field counts as seen, which makes up for the member that is left behind
        have hmember : readMember keep o .stored seen (.text name) value.toSource
            = .ok (f₀ :: seen) := by
          simp [readMember, Quoted.check, hfind, hseen, bind, Except.bind, pure, Except.pure]
        rw [hmember]
        simp only
        rw [ih]
        refine forall₂_congr fun f hf => ?_
        by_cases hff : f = f₀
        · subst hff
          simp [hname₀, seenCount, hseen]
        · have hname : f.goesBy name = false := by
            rw [Bool.eq_false_iff]
            exact fun hg => hff (Option.some.inj
              ((h.find?_eq_some_iff.2 ⟨hf, hg⟩).symm.trans hfind))
          have hne : f₀.name ≠ f.name := fun he =>
            hff (h.eq_of_goesBy hf hf₀ (Field.goesBy_iff.2 (Or.inl he))
              (Field.goesBy_iff.2 (Or.inl rfl)))
          simp [hname, seenCount, hne]

/-- The items of a stored list are read without fault exactly if they are not too many. -/
theorem readItems_stored_iff (o : Outline) (items : List Source) :
    readItems o .stored items .closed = .ok () ↔ items.length ≤ o.fields.length := by
  unfold readItems
  simp only
  split
  · next hlt => exact ⟨fun _ => Nat.le_of_lt hlt, fun _ => rfl⟩
  · next hge =>
    -- all fields have their items, and only surplus ones are a fault
    rw [Placed.ofExcept_eq_ok_iff, readStoredEnd]
    simp only [List.isEmpty_iff, List.drop_eq_nil_iff]
    split <;> simp_all

/-- The frame of a record has no value of its own: it and the fields have to be read without fault. -/
theorem frame_eq_ok_iff {frame : Placed Unit} {fields : Placed α} {a : α} :
    ((fun _ a => a) <$> frame <*> fields).toExcept = .ok a ↔ frame = .ok () ∧ fields = .ok a := by
  rw [Placed.toExcept_eq_ok_iff, Placed.seq_eq_ok_iff]
  constructor
  · rintro ⟨g, a', hg, ha, rfl⟩
    obtain ⟨u, hu, rfl⟩ := Placed.map_eq_ok_iff.1 hg
    exact ⟨hu, ha⟩
  · rintro ⟨hu, ha⟩
    exact ⟨fun a => a, a, Placed.map_eq_ok_iff.2 ⟨(), hu, rfl⟩, ha, rfl⟩

/-- Where its frame has no fault, a map is read as its fields are. -/
theorem readMap_of_frame {o : Outline} {body : Reading → Record → List (String × Json) → Placed α}
    {way inner : Reading} {members : List (Quoted × Source)} {fin : MapEnd}
    (henter : way.enter = .ok inner) (hframe : readMembers true o inner fin 0 [] members = .ok ()) :
    readMap o body way (.map members fin)
      = (body inner (.byName members) (others o members)).toExcept := by
  rw [readMap, henter]
  show Placed.toExcept ((fun _ a => a) <$> readMembers true o inner fin 0 [] members <*> _) = _
  rw [hframe]
  cases body inner (.byName members) (others o members) <;> rfl

/-- A stored value is read as a record exactly if it has the shape of one and its fields can be
read. -/
theorem read_stored_iff {o : Outline} (h : o.Separate) (body : Reading → Record → Placed α)
    (v : Json) (a : α) :
    read o body .stored v.toSource = .ok a ↔
      o.Fits v ∧ body .stored (ofJson o v) = .ok a := by
  cases v with
  | map members =>
    refine frame_eq_ok_iff.trans ?_
    rw [readMembers_stored_iff h]
    rfl
  | list items =>
    refine frame_eq_ok_iff.trans ?_
    rw [readItems_stored_iff, Json.itemsToSource_eq_map, List.length_map]
    simp only [Outline.Fits, ofJson, Json.itemsToSource_eq_map]
  | null => exact ⟨fun hr => (nomatch hr), fun hr => hr.1.elim⟩
  | bool b => exact ⟨fun hr => (nomatch hr), fun hr => hr.1.elim⟩
  | number n => exact ⟨fun hr => (nomatch hr), fun hr => hr.1.elim⟩
  | text s => exact ⟨fun hr => (nomatch hr), fun hr => hr.1.elim⟩

/-- A map from the names of its fields is read if its members and its fields can be. -/
theorem readMap_eq_ok {o : Outline} {body : Reading → Record → List (String × Json) → Placed α}
    {way : Reading} {src : Source} {a : α} (h : readMap o body way src = .ok a) :
    ∃ members fin inner, src = .map members fin ∧ way.enter = .ok inner ∧
      body inner (.byName members) (others o members) = .ok a := by
  cases src with
  | map members fin =>
    obtain ⟨inner, hinner, h⟩ := bind_eq_ok_iff.1 h
    obtain ⟨f, a', hf, hbody, rfl⟩ := Placed.seq_eq_ok_iff.1 (Placed.toExcept_eq_ok_iff.1 h)
    obtain ⟨_, -, rfl⟩ := Placed.map_eq_ok_iff.1 hf
    exact ⟨members, fin, inner, rfl, hinner, hbody⟩
  | _ => cases h

/-- A list of the fields is read as a record that may be a list. -/
theorem readTuple_toSource {o : Outline} (body : Reading → Record → Placed α) (way : Reading)
    (items : List Json) : readTuple o body way (Json.list items).toSource
      = Record.read o body way (Json.list items).toSource := rfl

/-! ## Reading fields -/

section Fields

variable {r : Record} {f : Field} {a : α}

theorem requiredAt_eq_ok_iff {read : Nat → Source → Except ReadError α} :
    r.requiredAt f read = .ok a ↔
      ∃ place src, r.find? f = some (place, src) ∧ read place src = .ok a := by
  rw [requiredAt]
  cases hf : r.find? f with
  | none =>
    have hmissing : r.missing f ≠ Placed.ok a := by
      unfold missing
      split <;> simp
    simp [hmissing]
  | some found => simp [Placed.ofExcept_eq_ok_iff, Prod.ext_iff]

theorem required_eq_ok_iff {read : Source → Except ReadError α} :
    r.required f read = .ok a ↔ ∃ place src, r.find? f = some (place, src) ∧ read src = .ok a :=
  requiredAt_eq_ok_iff

theorem withDefault_eq_ok_iff {default : α} {read : Source → Except ReadError α} :
    r.withDefault f default read = .ok a ↔
      r.find? f = none ∧ default = a ∨
        ∃ place src, r.find? f = some (place, src) ∧ read src = .ok a := by
  rw [withDefault]
  cases r.find? f with
  | none => simp
  | some found => simp [Placed.ofExcept_eq_ok_iff, Prod.ext_iff]

end Fields

section StoredFields

variable {o : Outline} {v : Json} {f : Field} {a : α}

theorem find?_ofJson :
    (ofJson o v).find? f = (f.at? v).map fun found => (found.1, found.2.toSource) := by
  cases v with
  | map members =>
    simp only [ofJson, find?, Field.at?, Json.membersToSource_eq_map, List.findIdx?_map,
      List.getElem?_map, Option.map_bind]
    congr 1
    funext i
    simp only [Function.comp]
    cases members[i]? <;> rfl
  | list items =>
    simp only [ofJson, find?, Field.at?, Json.itemsToSource_eq_map, List.getElem?_map]
    cases items[f.place]? <;> rfl
  | _ => rfl

theorem requiredAt_ofJson_iff {read : Nat → Source → Except ReadError α} :
    (ofJson o v).requiredAt f read = .ok a ↔
      ∃ place x, f.at? v = some (place, x) ∧ read place x.toSource = .ok a := by
  rw [requiredAt_eq_ok_iff, find?_ofJson]
  cases f.at? v <;> simp [Prod.ext_iff]

theorem required_ofJson_iff {read : Source → Except ReadError α} :
    (ofJson o v).required f read = .ok a ↔ ∃ x, f.of? v = some x ∧ read x.toSource = .ok a := by
  rw [required_eq_ok_iff, find?_ofJson, Field.of?]
  cases f.at? v <;> simp

theorem withDefault_ofJson_iff {default : α} {read : Source → Except ReadError α} :
    (ofJson o v).withDefault f default read = .ok a ↔
      f.of? v = none ∧ default = a ∨ ∃ x, f.of? v = some x ∧ read x.toSource = .ok a := by
  rw [withDefault_eq_ok_iff, find?_ofJson, Field.of?]
  cases f.at? v <;> simp

/-- A list has to hold a field that may be null; a map may leave it out. -/
theorem optional_ofJson_iff {read : Source → Except ReadError α} {a : Option α} :
    (ofJson o v).optional f read = .ok a ↔
      f.of? v = none ∧ none = a ∧ (∀ items, v ≠ .list items) ∨
        ∃ x, f.of? v = some x ∧ Source.readOptional read x.toSource = .ok a := by
  have hname (hv : ∀ items, v ≠ .list items) :
      (ofJson o v).optional f read
        = (ofJson o v).withDefault f none (Source.readOptional read) := by
    cases v with
    | list items => exact absurd rfl (hv items)
    | _ => rfl
  -- what is no list is read as a map from names, even if it has no members to look at
  by_cases hv : ∀ items, v ≠ .list items
  · rw [hname hv, withDefault_ofJson_iff]
    simp [hv]
  · obtain ⟨items, rfl⟩ := not_forall_not.1 hv
    show (ofJson o (.list items)).required f _ = .ok a ↔ _
    rw [required_ofJson_iff]
    simp

/-- A text that may be null or left out. -/
theorem defaultText_ofJson_iff {a : Option String} :
    (ofJson o v).withDefault f none (Source.readOptional Source.readText) = .ok a ↔
      (f.of? v).getD .null = .ofText? a := by
  simp only [withDefault_ofJson_iff, Source.readOptionalText_iff]
  cases f.of? v with
  | none => cases a <;> simp [Json.ofText?]
  | some x => simp

/-- A text that may be null: a map may leave it out, a list has to hold it. -/
theorem optionalText_ofJson_iff {a : Option String} :
    (ofJson o v).optional f Source.readText = .ok a ↔
      (f.of? v).getD .null = .ofText? a ∧ (f.of? v = none → ∀ items, v ≠ .list items) := by
  simp only [optional_ofJson_iff, Source.readOptionalText_iff]
  cases f.of? v with
  | none => cases a <;> simp [Json.ofText?]
  | some x => simp

end StoredFields

end Record

end QueryShaping
