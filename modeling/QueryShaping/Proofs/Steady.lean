import QueryShaping.Proofs.Parts
import QueryShaping.Proofs.Reordered

/-!
# Readers for which the order of members plays no part

A value may come to a reader straight from a text or from a store, and with its members in one order
or another. The readers of statements make nothing of this, as long as a text is not nested too
deeply. This is said once for each way of building a reader, and then holds for all readers that are
built so.

## What this module delivers

- `Source.Steady`: a reader that reads reordered values as the same.
- `Source.steady_readOptional`, `Source.steady_readList`, `Source.steady_readChoice`: plain values.
- `Record.Steady`, `Record.steady_read`, `Record.steady_readMap`: records, field by field.
- `Expr.Reads.reordered`: reordered values are read as the same condition.
- `Statement.steady_read`: and as the same statement.
-/

set_option autoImplicit false

namespace QueryShaping

variable {α β : Type}

/-! ## Plain values -/

theorem Json.Chooses.reordered {v w : Json} {name : String} (h : v.Reordered w)
    (hv : v.Chooses name) : w.Chooses name := by
  rcases hv with rfl | rfl
  · exact .inl (h.text_iff.1 rfl)
  · obtain ⟨members', rfl⟩ := h.exists_map
    obtain ⟨y, hy, hnull⟩ := h.exists_mem List.mem_cons_self
    obtain rfl := hnull.null_iff.1 rfl
    -- there is one member, and this is it
    have hlength := h.names_perm.length_eq
    match members' with
    | [m] => exact .inr (congrArg (fun m => Json.map [m]) (List.mem_singleton.1 hy).symm)
    | [] => cases hlength
    | _ :: _ :: _ => simp at hlength

namespace Source

/-- A reader reads reordered values as the same, from a text where there is room as well as from what
was stored. -/
def Steady (read : Reading → Source → Except ReadError α) : Prop :=
  ∀ ⦃v w : Json⦄, v.Reordered w → ∀ ⦃way way' : Reading⦄, way.HasRoom v → way'.HasRoom w →
    ∀ a : α, read way v.toSource = .ok a → read way' w.toSource = .ok a

variable {read : Reading → Source → Except ReadError α}

/-- What a steady reader reads, it also reads from the normal form. -/
theorem Steady.read_normal (hread : Steady read) {v : Json} {a : α} (hv : v.Distinct)
    (h : read .stored v.toSource = .ok a) : read .stored v.normal.toSource = .ok a :=
  hread hv.reordered_normal (Reading.hasRoom_stored v) (Reading.hasRoom_stored v.normal) a h

theorem steady_readText : Steady fun _ => readText := by
  intro v w h way way' _ _ s hs
  rw [readText_toSource_iff] at hs ⊢
  exact h.text_iff.1 hs

theorem readAny_toSource_iff {way : Reading} {v x : Json} :
    readAny way v.toSource = .ok x ↔ way.HasRoom v ∧ v.normal = x := by
  rw [readAny, then_eq_ok_iff, Reading.readWhole_toSource_iff, Json.toJson_toSource]
  exact and_congr_right' ⟨fun h => Except.ok.inj h, fun h => congrArg Except.ok h⟩

theorem steady_readAny : Steady readAny := by
  intro v w h way way' _ hroom x hx
  rw [readAny_toSource_iff] at hx ⊢
  exact ⟨hroom, h.normal.symm.trans hx.2⟩

theorem steady_readOptional (hread : Steady read) : Steady fun way => readOptional (read way) := by
  intro v w h way way' hroom hroom' a ha
  rw [readOptional_toSource_iff] at ha ⊢
  rcases ha with ⟨hnull, ha⟩ | ⟨hnull, b, hb, ha⟩
  · exact .inl ⟨h.null_iff.1 hnull, ha⟩
  · exact .inr ⟨fun hw => hnull (h.null_iff.2 hw), b, hread h hroom hroom' b hb, ha⟩

/-- A list is read item by item, to its closing bracket. -/
theorem readList_eq_ok_iff {way : Reading} {src : Source} {values : List α} :
    readList read way src = .ok values ↔
      ∃ items inner, src = .list items .closed ∧ way.enter = .ok inner ∧
        List.Forall₂ (fun x a => read inner x = .ok a) items values := by
  constructor
  · intro h
    cases src with
    | list items fin =>
      obtain ⟨inner, henter, h⟩ := bind_eq_ok_iff.1 h
      obtain ⟨values', hvalues, h⟩ := bind_eq_ok_iff.1 h
      obtain ⟨hfin, hsame⟩ := then_eq_ok_iff.1 h
      obtain rfl := Except.ok.inj hsame
      obtain rfl := ListEnd.check_eq_ok_iff.1 hfin
      exact ⟨items, inner, rfl, henter, (mapM_eq_ok_iff _ _ _).1 hvalues⟩
    | _ => cases h
  · rintro ⟨items, inner, rfl, henter, hitems⟩
    rw [readList, henter]
    exact bind_eq_ok_iff.2 ⟨inner, rfl, bind_eq_ok_iff.2
      ⟨values, (mapM_eq_ok_iff _ _ _).2 hitems, rfl⟩⟩

theorem readList_toSource_iff {way : Reading} {v : Json} {values : List α} :
    readList read way v.toSource = .ok values ↔
      ∃ items inner, v = .list items ∧ way.enter = .ok inner ∧
        List.Forall₂ (fun x a => read inner x.toSource = .ok a) items values := by
  rw [readList_eq_ok_iff]
  constructor
  · rintro ⟨trees, inner, hv, henter, hitems⟩
    cases v with
    | list items =>
      obtain ⟨rfl, -⟩ := Source.list.inj hv
      rw [Json.itemsToSource_eq_map, List.forall₂_map_left_iff] at hitems
      exact ⟨items, inner, rfl, henter, hitems⟩
    | _ => cases hv
  · rintro ⟨items, inner, rfl, henter, hitems⟩
    refine ⟨_, inner, rfl, henter, ?_⟩
    rwa [Json.itemsToSource_eq_map, List.forall₂_map_left_iff]

theorem steady_readList (hread : Steady read) : Steady (readList read) := by
  intro v w h way way' hroom hroom' values hvalues
  obtain ⟨items, inner, rfl, henter, hitems⟩ := readList_toSource_iff.1 hvalues
  obtain ⟨items', rfl, hall⟩ := h.of_list
  obtain ⟨inner', henter', hin'⟩ := hroom'.enter (Nat.succ_pos _)
  refine readList_toSource_iff.2 ⟨items', inner', rfl, henter', ?_⟩
  have hin : ∀ x ∈ items, inner.HasRoom x := hroom.of_enter (Nat.succ_pos _) henter
  exact forall₂_of_related hall hitems fun x hx y hy hxy a ha =>
    hread hxy (hin x hx) (hin' y hy) a ha

theorem Steady.map (hread : Steady read) (f : α → β) : Steady fun way src => f <$> read way src := by
  intro v w h way way' hroom hroom' b hb
  obtain ⟨a, ha, rfl⟩ := map_eq_ok_iff.1 hb
  exact map_eq_ok_iff.2 ⟨a, hread h hroom hroom' a ha, rfl⟩

theorem Steady.bind (hread : Steady read) (f : α → Except ReadError β) :
    Steady fun way src => read way src >>= f := by
  intro v w h way way' hroom hroom' b hb
  obtain ⟨a, ha, hb⟩ := bind_eq_ok_iff.1 hb
  exact bind_eq_ok_iff.2 ⟨a, hread h hroom hroom' a ha, hb⟩

theorem steady_readListOrNull (hread : Steady read) : Steady (readListOrNull read) :=
  (steady_readOptional (steady_readList hread)).map _

/-- Where there is room, a choice is read from a text as it is from what was stored. -/
theorem readChoice_toSource {choices : List (String × α)} {way : Reading} {v : Json} {a : α}
    (hroom : way.HasRoom v) :
    readChoice choices false way v.toSource = .ok a ↔
      readChoice choices false .stored v.toSource = .ok a := by
  cases way with
  | stored => exact Iff.rfl
  | direct room =>
    cases v with
    | map members =>
      obtain ⟨inner, henter, -⟩ := hroom.enter (Nat.succ_pos _)
      show ((Reading.direct room).enter >>= fun _ =>
        readChoiceMap choices (Json.membersToSource members) .closed) = _ ↔ _
      rw [henter]
      match members with
      | [] => exact iff_of_false nofun nofun
      | [(name, payload)] => exact Iff.rfl
      | (name, payload) :: m :: rest =>
        -- a second member is refused, if the first one is not
        refine iff_of_false (fun h => ?_) nofun
        obtain ⟨_, -, h⟩ := bind_eq_ok_iff.1 h
        obtain ⟨_, -, h⟩ := bind_eq_ok_iff.1 h
        obtain ⟨_, -, h⟩ := bind_eq_ok_iff.1 h
        obtain ⟨hlast, -⟩ := then_eq_ok_iff.1 (then_eq_ok_iff.1 h).2
        cases hlast
    | text s => exact Iff.rfl
    | _ => exact iff_of_false nofun nofun

theorem steady_readChoice (choices : List (String × α)) : Steady (readChoice choices false) := by
  intro v w h way way' hroom hroom' a ha
  rw [readChoice_toSource hroom, readChoice_toSource_iff] at ha
  rw [readChoice_toSource hroom', readChoice_toSource_iff]
  obtain ⟨name, hname, hv⟩ := ha
  exact ⟨name, hname, hv.reordered h⟩

end Source

/-! ## Records -/

namespace Record

open Source

variable {o : Outline} {f : Field}

/-- A reader of fields reads those of reordered values as the same. -/
def Steady (o : Outline) (get : Reading → Record → Placed α) : Prop :=
  ∀ ⦃v w : Json⦄, v.Reordered w → o.Fits v → ∀ ⦃way way' : Reading⦄,
    (∀ x ∈ v.parts, way.HasRoom x) → (∀ x ∈ w.parts, way'.HasRoom x) →
      ∀ a : α, get way (ofJson o v) = .ok a → get way' (ofJson o w) = .ok a

variable {read : Reading → Source → Except ReadError α}

/-- The value in a field is read in both as the same. -/
theorem exists_field (hf : f ∈ o.fields) (hread : Source.Steady read) {v w : Json}
    (h : v.Reordered w) (hv : o.Fits v) {way way' : Reading} (hroom : ∀ x ∈ v.parts, way.HasRoom x)
    (hroom' : ∀ x ∈ w.parts, way'.HasRoom x) {a : α}
    (ha : ∃ x, f.of? v = some x ∧ read way x.toSource = .ok a) :
    ∃ y, f.of? w = some y ∧ read way' y.toSource = .ok a := by
  obtain ⟨x, hx, ha⟩ := ha
  obtain ⟨y, hy, hxy⟩ := h.of? hv hf hx
  exact ⟨y, hy, hread hxy (hroom x (Field.mem_parts_of_of? hx))
    (hroom' y (Field.mem_parts_of_of? hy)) a ha⟩

theorem steady_required (hf : f ∈ o.fields) (hread : Source.Steady read) :
    Steady o fun way r => r.required f (read way) := by
  intro v w h hv way way' hroom hroom' a ha
  rw [required_ofJson_iff] at ha ⊢
  exact exists_field hf hread h hv hroom hroom' ha

theorem steady_withDefault (hf : f ∈ o.fields) (default : α) (hread : Source.Steady read) :
    Steady o fun way r => r.withDefault f default (read way) := by
  intro v w h hv way way' hroom hroom' a ha
  rw [withDefault_ofJson_iff] at ha ⊢
  rcases ha with ⟨hnone, ha⟩ | ha
  · exact .inl ⟨h.of?_eq_none hv hf hnone, ha⟩
  · exact .inr (exists_field hf hread h hv hroom hroom' ha)

theorem steady_optional (hf : f ∈ o.fields) (hread : Source.Steady read) :
    Steady o fun way r => r.optional f (read way) := by
  intro v w h hv way way' hroom hroom' a ha
  rw [optional_ofJson_iff] at ha ⊢
  rcases ha with ⟨hnone, ha, hlist⟩ | ha
  · refine .inl ⟨h.of?_eq_none hv hf hnone, ha, fun items hw => ?_⟩
    subst hw
    obtain ⟨items', rfl, -⟩ := h.symm.of_list
    exact hlist items' rfl
  · exact .inr (exists_field hf (steady_readOptional hread) h hv hroom hroom' ha)

theorem Steady.map {get : Reading → Record → Placed α} (hget : Steady o get) (g : α → β) :
    Steady o fun way r => g <$> get way r := by
  intro v w h hv way way' hroom hroom' b hb
  obtain ⟨a, ha, rfl⟩ := Placed.map_eq_ok_iff.1 hb
  exact Placed.map_eq_ok_iff.2 ⟨a, hget h hv hroom hroom' a ha, rfl⟩

theorem Steady.seq {get : Reading → Record → Placed (α → β)} {next : Reading → Record → Placed α}
    (hget : Steady o get) (hnext : Steady o next) : Steady o fun way r => get way r <*> next way r := by
  intro v w h hv way way' hroom hroom' b hb
  obtain ⟨g, a, hg, ha, rfl⟩ := Placed.seq_eq_ok_iff.1 hb
  exact Placed.seq_eq_ok_iff.2
    ⟨g, a, hget h hv hroom hroom' g hg, hnext h hv hroom hroom' a ha, rfl⟩

/-- Where what is no field is no fault, the members of a map are read as their names are. -/
theorem readMembers_congr {keep : Bool} {way way' : Reading} {fin : MapEnd}
    {ms ns : List (Quoted × Source)}
    (h : List.Forall₂ (fun m n => n.1 = m.1 ∧ (o.find? m.1 = none →
      readOther keep way m.2 = .ok () ∧ readOther keep way' n.2 = .ok ())) ms ns) :
    ∀ (place : Nat) (seen : List Field),
      readMembers keep o way fin place seen ms = readMembers keep o way' fin place seen ns := by
  induction h with
  | nil => exact fun _ _ => rfl
  | @cons m n ms ns hmn _ ih =>
    intro place seen
    obtain ⟨_, x⟩ := m
    obtain ⟨q, y⟩ := n
    obtain ⟨rfl, hother⟩ := hmn
    have hmember : readMember keep o way seen q x = readMember keep o way' seen q y := by
      rw [readMember, readMember]
      cases hfind : o.find? q with
      | some f => rfl
      | none => rw [(hother hfind).1, (hother hfind).2]
    rw [readMembers, readMembers, hmember]
    cases readMember keep o way' seen q y with
    | error e => rfl
    | ok seen' => exact ih _ _

/-- Where there is room for what is no field, the members of a map are read from a text as they are
from what was stored. -/
theorem readMembers_toSource {keep : Bool} {way : Reading} {members : List (String × Json)}
    (hroom : ∀ m ∈ members, o.find? (.text m.1) = none → way.HasRoom m.2) (place : Nat)
    (seen : List Field) :
    readMembers keep o way .closed place seen (Json.membersToSource members)
      = readMembers keep o .stored .closed place seen (Json.membersToSource members) := by
  refine readMembers_congr ?_ place seen
  rw [Json.membersToSource_eq_map, List.forall₂_map_left_iff, List.forall₂_map_right_iff,
    List.forall₂_same]
  refine fun m hm => ⟨rfl, fun hfind => ⟨?_, rfl⟩⟩
  -- what is no field is passed over, or read to its end, for which there is room
  cases way with
  | stored => rfl
  | direct room =>
    cases keep with
    | false => exact ignore_toSource m.2
    | true => exact check_toSource_iff.2 (hroom m hm hfind)

theorem readItems_toSource_iff {way : Reading} {items : List Source} :
    readItems o way items .closed = .ok () ↔ items.length ≤ o.fields.length := by
  cases way with
  | stored => exact readItems_stored_iff o items
  | direct room =>
    rw [← readItems_stored_iff o items]
    unfold readItems
    by_cases hlt : items.length < o.fields.length
    · simp only [if_pos hlt]
    · simp only [if_neg hlt, Placed.ofExcept_eq_ok_iff, readEnd, readStoredEnd]
      by_cases hempty : (items.drop o.fields.length).isEmpty = true
      · simp only [if_pos hempty]
        exact iff_of_true rfl trivial
      · simp only [if_neg hempty]
        constructor
        · intro h
          cases h
        · intro h
          cases h

/-- A value is read as a record exactly if it has the shape of one and its fields can be read. -/
theorem read_toSource_iff (ho : o.Separate) {body : Reading → Record → Placed α} {way : Reading}
    {v : Json} {a : α} (hroom : way.HasRoom v) :
    Record.read o body way v.toSource = .ok a ↔
      o.Fits v ∧ ∃ inner, way.enter = .ok inner ∧ body inner (ofJson o v) = .ok a := by
  cases v with
  | map members =>
    obtain ⟨inner, henter, hin⟩ := hroom.enter (Nat.succ_pos _)
    rw [Json.toSource, Record.read, henter, bind_eq_ok_iff]
    simp only [Except.ok.injEq, exists_eq_left', frame_eq_ok_iff]
    rw [readMembers_toSource fun m hm _ => List.forall_mem_map.1 hin m hm, readMembers_stored_iff ho]
    exact Iff.rfl
  | list items =>
    obtain ⟨inner, henter, -⟩ := hroom.enter (Nat.succ_pos _)
    rw [Json.toSource, Record.read, henter, bind_eq_ok_iff]
    simp only [Except.ok.injEq, exists_eq_left', frame_eq_ok_iff]
    rw [readItems_toSource_iff, Json.itemsToSource_eq_map, List.length_map]
    simp only [ofJson, Json.itemsToSource_eq_map]
    exact Iff.rfl
  | _ =>
    refine iff_of_false (fun h => ?_) fun h => h.1.elim
    cases h

theorem readMap_toSource_iff (ho : o.Separate)
    {body : Reading → Record → List (String × Json) → Placed α} {way : Reading} {v : Json} {a : α}
    (hroom : way.HasRoom v) :
    readMap o body way v.toSource = .ok a ↔
      ∃ members, v = .map members ∧ o.Fits v ∧ ∃ inner, way.enter = .ok inner ∧
        body inner (ofJson o v) (others o (Json.membersToSource members)) = .ok a := by
  cases v with
  | map members =>
    obtain ⟨inner, henter, hin⟩ := hroom.enter (Nat.succ_pos _)
    rw [Json.toSource, readMap, henter, bind_eq_ok_iff]
    simp only [Except.ok.injEq, exists_eq_left', frame_eq_ok_iff, Json.map.injEq]
    rw [readMembers_toSource fun m hm _ => List.forall_mem_map.1 hin m hm, readMembers_stored_iff ho]
    exact Iff.rfl
  | _ =>
    constructor
    · intro h
      cases h
    · rintro ⟨_, h, -⟩
      cases h

theorem steady_read (ho : o.Separate) {body : Reading → Record → Placed α} (hbody : Steady o body) :
    Source.Steady (Record.read o body) := by
  intro v w h way way' hroom hroom' a ha
  obtain ⟨hv, inner, henter, ha⟩ := (read_toSource_iff ho hroom).1 ha
  have hw := h.fits hv
  -- what has the shape of a record can be entered
  obtain ⟨inner', henter', hin'⟩ := hroom'.enter hw.depth_pos
  have hin := hroom.of_enter hv.depth_pos henter
  exact (read_toSource_iff ho hroom').2 ⟨hw, inner', henter', hbody h hv hin hin' a ha⟩

theorem steady_readTuple (ho : o.Separate) {body : Reading → Record → Placed α}
    (hbody : Steady o body) : Source.Steady (readTuple o body) := by
  intro v w h way way' hroom hroom' a ha
  have hread := steady_read ho hbody h hroom hroom' a
  cases v with
  | map members => cases ha
  | list items =>
    obtain ⟨items', rfl, -⟩ := h.of_list
    rw [readTuple_toSource] at ha ⊢
    exact hread ha
  | _ => cases ha

theorem steady_readMap (ho : o.Separate)
    {body : Reading → Record → List (String × Json) → Placed α}
    (hbody : ∀ extra, Steady o fun way r => body way r extra) :
    Source.Steady (readMap o body) := by
  intro v w h way way' hroom hroom' a ha
  obtain ⟨members, rfl, hv, inner, henter, ha⟩ := (readMap_toSource_iff ho hroom).1 ha
  obtain ⟨members', rfl⟩ := h.exists_map
  obtain ⟨inner', henter', hin'⟩ := hroom'.enter (Nat.succ_pos _)
  have hin := hroom.of_enter (Nat.succ_pos _) henter
  refine (readMap_toSource_iff ho hroom').2 ⟨members', rfl, h.fits hv, inner', henter', ?_⟩
  rw [← h.others]
  exact hbody _ h hv hin hin' a ha

end Record

/-! ## Columns and literals -/

open Source

theorem Column.steady_read : Source.Steady Column.read := by
  apply Record.steady_read outline_separate
  have htable := Record.steady_optional (f := tableField) (o := outline)
    (by simp [outline, Outline.record]) steady_readText
  have hname := Record.steady_required (f := nameField) (o := outline)
    (by simp [outline, Outline.record]) steady_readText
  exact (htable.map Column.mk).seq hname

theorem Literal.steady_read : Source.Steady Literal.read := by
  have hkind := Record.steady_required (f := kindField) (o := outline)
    (by simp [outline, Outline.record]) (steady_readChoice Kind.choices)
  have hvalue := Record.steady_withDefault (f := valueField) (o := outline)
    (by simp [outline, Outline.record]) .null steady_readAny
  exact (Record.steady_read outline_separate ((hkind.map Prod.mk).seq hvalue)).bind _

/-! ## Conditions -/

namespace Expr

variable {v w : Json}

/-- The operands of reordered binary operators are reordered. -/
theorem BinaryFields.reordered (h : v.Reordered w) {op : Operator} {x y : Json} {marked : Bool}
    (hv : BinaryFields v op x y marked) :
    ∃ x' y', BinaryFields w op x' y' marked ∧ x.Reordered x' ∧ y.Reordered y' := by
  obtain ⟨hfits, ⟨z, hz, hop⟩, hx, hy, hmark⟩ := hv
  have hmem {f : Field} (hf : f = operatorField ∨ f = leftField ∨ f = rightField ∨ f = markField) :
      f ∈ binaryOutline.fields := by
    simpa [binaryOutline, Outline.record] using hf
  obtain ⟨z', hz', hzz⟩ := h.of? hfits (hmem (.inl rfl)) hz
  obtain ⟨x', hx', hxx⟩ := h.of? hfits (hmem (.inr (.inl rfl))) hx
  obtain ⟨y', hy', hyy⟩ := h.of? hfits (hmem (.inr (.inr (.inl rfl)))) hy
  have hmark' := hmem (.inr (.inr (.inr rfl)))
  refine ⟨x', y', ⟨h.fits hfits, ⟨z', hz', hop.reordered hzz⟩, hx', hy', ?_⟩, hxx, hyy⟩
  cases hm : markField.of? v with
  | none =>
    rw [hm] at hmark
    rw [h.of?_eq_none hfits hmark' hm]
    exact hmark
  | some m =>
    rw [hm] at hmark
    obtain ⟨m', hm', hmm⟩ := h.of? hfits hmark' hm
    rw [hm']
    exact hmm.bool_iff.1 hmark

end Expr

theorem Column.Fields.reordered {v w : Json} (h : v.Reordered w) {c : Column}
    (hv : Column.Fields v c) : Column.Fields w c :=
  read_iff.1 (steady_read h (Reading.hasRoom_stored v) (Reading.hasRoom_stored w) c (read_iff.2 hv))

theorem Literal.Fields.reordered {v w : Json} (h : v.Reordered w) {l : Literal}
    (hv : Literal.Fields v l) : Literal.Fields w l :=
  read_iff.1 (steady_read h (Reading.hasRoom_stored v) (Reading.hasRoom_stored w) l (read_iff.2 hv))

namespace Expr

variable {v w : Json}

/-- No reader of columns, literals and binary operators takes the value. -/
structure Refused (v : Json) : Prop where
  column : ∀ c, Column.read .stored v.toSource ≠ .ok c
  literal : ∀ l, Literal.read .stored v.toSource ≠ .ok l
  binary : ∀ e, readBinary .stored v.toSource ≠ .ok e

theorem refused_iff :
    Refused v ↔ (∀ c, ¬ Column.Fields v c) ∧ (∀ l, ¬ Literal.Fields v l) ∧
      ∀ op x y marked, ¬ BinaryFields v op x y marked := by
  constructor
  · rintro ⟨hcolumn, hliteral, hbinary⟩
    refine ⟨fun c hc => hcolumn c (Column.read_iff.2 hc),
      fun l hl => hliteral l (Literal.read_iff.2 hl), fun op x y marked hb => ?_⟩
    exact hbinary _ (readBinary_iff.2 ⟨op, x, y, marked, hb, rfl⟩)
  · rintro ⟨hcolumn, hliteral, hbinary⟩
    refine ⟨fun c hc => hcolumn c (Column.read_iff.1 hc),
      fun l hl => hliteral l (Literal.read_iff.1 hl), fun e he => ?_⟩
    obtain ⟨op, x, y, marked, hb, -⟩ := readBinary_iff.1 he
    exact hbinary op x y marked hb

theorem Refused.reordered (h : v.Reordered w) (hv : Refused v) : Refused w := by
  obtain ⟨hcolumn, hliteral, hbinary⟩ := refused_iff.1 hv
  refine refused_iff.2 ⟨fun c hc => hcolumn c (hc.reordered h.symm),
    fun l hl => hliteral l (hl.reordered h.symm), fun op x y marked hb => ?_⟩
  obtain ⟨x', y', hb', -, -⟩ := hb.reordered h.symm
  exact hbinary op x' y' marked hb'

/-- Reordered values are read as the same condition. -/
theorem Reads.reordered {e : Expr} (hv : Reads v e) :
    ∀ {w : Json}, v.Reordered w → Reads w e := by
  induction hv with
  -- what an earlier reader refuses it refuses in either order
  | column hc => exact fun h => .column (hc.reordered h)
  | literal hn hl =>
    intro w h
    exact .literal (fun c hc => hn c (hc.reordered h.symm)) (hl.reordered h)
  | binary hn hnl hb _ _ ihx ihy =>
    intro w h
    obtain ⟨x', y', hb', hx, hy⟩ := hb.reordered h
    exact .binary (fun c hc => hn c (hc.reordered h.symm)) (fun l hl => hnl l (hl.reordered h.symm))
      hb' (ihx hx) (ihy hy)
  | @foreign v hn hnl hnb =>
    intro w h
    obtain ⟨hn', hnl', hnb'⟩ := refused_iff.1 ((refused_iff.2 ⟨hn, hnl, hnb⟩).reordered h)
    rw [h.normal]
    exact .foreign hn' hnl' hnb'

theorem read_toSource_iff {way : Reading} {v : Json} {e : Expr} :
    Expr.read way v.toSource = .ok e ↔ way.HasRoom v ∧ Reads v e := by
  rw [Expr.read, then_eq_ok_iff, Reading.readWhole_toSource_iff, reads_iff]
  exact and_congr_right' ⟨fun h => Except.ok.inj h, fun h => congrArg Except.ok h⟩

theorem steady_read : Source.Steady Expr.read := by
  intro v w h way way' _ hroom' e he
  exact read_toSource_iff.2 ⟨hroom', (read_toSource_iff.1 he).2.reordered h⟩

end Expr

/-! ## Statements -/

theorem Direction.steady_read : Source.Steady Direction.read := steady_readChoice _

theorem OrderEntry.steady_read : Source.Steady OrderEntry.read := by
  have hcolumn := Record.steady_required (f := columnField) (o := outline)
    (by simp [outline, Outline.record]) Column.steady_read
  have hdirection := Record.steady_required (f := directionField) (o := outline)
    (by simp [outline, Outline.record]) Direction.steady_read
  exact Record.steady_read outline_separate ((hcolumn.map OrderEntry.mk).seq hdirection)

theorem SelectItem.steady_read : Source.Steady SelectItem.read := by
  have hcolumn := Record.steady_required (f := columnField) (o := outline)
    (by simp [outline, Outline.record]) Column.steady_read
  have halias := Record.steady_withDefault (f := aliasField) (o := outline)
    (by simp [outline, Outline.record]) none (steady_readOptional steady_readText)
  exact Record.steady_read outline_separate ((hcolumn.map SelectItem.mk).seq halias)

theorem Window.steady_read : Source.Steady Window.read := by
  have hoffset := Record.steady_required (f := offsetField) (o := outline)
    (by simp [outline]) Literal.steady_read
  have hcount := Record.steady_required (f := countField) (o := outline)
    (by simp [outline]) Literal.steady_read
  exact (Record.steady_readTuple outline_separate ((hoffset.map Prod.mk).seq hcount)).bind _

theorem Table.steady_read : Source.Steady Table.read := by
  have htext {f : Field} (hf : f ∈ outline.fields) := Record.steady_optional hf steady_readText
  refine Record.steady_readMap outline_separate fun extra => ?_
  have hdatabase := htext (f := databaseField) (by simp [outline, Outline.record])
  have hname := htext (f := nameField) (by simp [outline, Outline.record])
  have halias := htext (f := aliasField) (by simp [outline, Outline.record])
  exact ((hdatabase.map _).seq hname).seq halias

namespace Statement

theorem outline_separate : outline.Separate := by decide

/-- Reordered values are read as the same statement. -/
theorem steady_read : Source.Steady Statement.read := by
  refine Record.steady_readMap outline_separate fun extra => ?_
  have hmem {f : Field} (hf : f ∈ [kindField, distinctField, itemsField, tablesField, conditionField,
    groupsField, orderField, windowField]) : f ∈ outline.fields := hf
  have hkind := Record.steady_required (hmem (f := kindField) (by simp))
    (steady_readChoice [("select", ())])
  have hdistinct := Record.steady_withDefault (hmem (f := distinctField) (by simp)) .null
    steady_readAny
  have hitems := Record.steady_withDefault (hmem (f := itemsField) (by simp)) []
    (steady_readListOrNull SelectItem.steady_read)
  have htables := Record.steady_withDefault (hmem (f := tablesField) (by simp)) []
    (steady_readListOrNull Table.steady_read)
  have hcondition := Record.steady_optional (hmem (f := conditionField) (by simp)) Expr.steady_read
  have hgroups := Record.steady_optional (hmem (f := groupsField) (by simp))
    (steady_readList Expr.steady_read)
  have horder := Record.steady_optional (hmem (f := orderField) (by simp))
    (steady_readList OrderEntry.steady_read)
  have hwindow := Record.steady_optional (hmem (f := windowField) (by simp)) Window.steady_read
  exact (((((((hkind.map _).seq hdistinct).seq hitems).seq htables).seq hcondition).seq hgroups).seq
    horder).seq hwindow

end Statement

end QueryShaping
