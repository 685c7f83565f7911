import QueryShaping.Proofs.Faithful
import QueryShaping.Proofs.Swapped

/-!
# Readers that an exchange of members does not disturb

The tree of a document may have faults where nobody looks, so its readers cannot be followed on the
value that it stands for. They are followed on the tree itself: what a reader takes, it takes as the
same after two neighbouring members of a map have been exchanged. This is said once for each way of
building a reader.

## What this module delivers

- `Source.Neutral`: a reader that reads a tree and the tree after an exchange as the same.
- `Source.neutral_of_steady`: a reader that reads a value to its end and heeds no order is one.
- `Record.readMembers_eq_ok_iff`: when the members of a map are read without fault, apart from the
  values of the fields.
- `Record.neutral_read`, `Record.neutral_readMap`: records, field by field.
-/

set_option autoImplicit false

namespace QueryShaping

variable {α β : Type}

/-! ## Trees that are read -/

namespace Source

variable {src src' : Source} {way inner : Reading}

/-- A tree names no member twice, and if it is read from a store, it was read to its end before. -/
structure Ready (way : Reading) (src : Source) : Prop where
  distinct : src.Distinct
  stored : way = .stored → ∃ room, src.check room = .ok ()

/-- What is ready and read to its end is well written. -/
theorem Ready.exists_check (h : src.Ready way) (hwhole : src.readWhole way = .ok ()) :
    ∃ room, src.check room = .ok () := by
  cases way with
  | direct room => exact ⟨room, hwhole⟩
  | stored => exact h.stored rfl

/-- Only a store leads to a store. -/
theorem eq_stored_of_enter (henter : way.enter = .ok inner) (hinner : inner = .stored) :
    way = .stored := by
  subst hinner
  cases way with
  | stored => rfl
  | direct room =>
    obtain ⟨rest, -, hrest⟩ := Reading.enter_direct_eq_ok henter
    cases hrest

theorem Ready.items {items : List Source} {fin : ListEnd} (h : (list items fin).Ready way)
    (henter : way.enter = .ok inner) : ∀ x ∈ items, x.Ready inner := by
  intro x hx
  refine ⟨distinct_list_iff.1 h.distinct x hx, fun hinner => ?_⟩
  obtain ⟨room, hcheck⟩ := h.stored (eq_stored_of_enter henter hinner)
  obtain ⟨rest, -, hitems, -⟩ := check_list_iff.1 hcheck
  exact ⟨rest, hitems x hx⟩

theorem Ready.members {members : List (Quoted × Source)} {fin : MapEnd}
    (h : (map members fin).Ready way) (henter : way.enter = .ok inner) :
    ∀ m ∈ members, m.2.Ready inner := by
  intro m hm
  refine ⟨(distinct_map_iff.1 h.distinct).2 m hm, fun hinner => ?_⟩
  obtain ⟨room, hcheck⟩ := h.stored (eq_stored_of_enter henter hinner)
  obtain ⟨rest, -, hmembers, -⟩ := check_map_iff.1 hcheck
  exact ⟨rest, (hmembers m hm).2⟩

theorem Near.symm (h : Near src src') : Near src' src := by
  cases h with
  | refl => exact .refl
  | single h => exact .single h.symm

theorem Near.readWhole (h : Near src src') (hwhole : src.readWhole way = .ok ()) :
    src'.readWhole way = .ok () := by
  cases way with
  | direct room => exact h.check hwhole
  | stored => rfl

/-! ## Plain values -/

/-- A reader reads a tree and the tree after an exchange as the same. -/
def Neutral (read : Reading → Source → Except ReadError α) : Prop :=
  ∀ ⦃src src' : Source⦄, Near src src' → ∀ ⦃way : Reading⦄, src.Ready way →
    ∀ a : α, read way src = .ok a → read way src' = .ok a

variable {read : Reading → Source → Except ReadError α}

/-- A reader is neutral if what it reads has nothing to exchange. -/
theorem neutral_of_eq (h : ∀ ⦃src src' : Source⦄, Near src src' → ∀ ⦃way : Reading⦄ ⦃a : α⦄,
    read way src = .ok a → src' = src) : Neutral read := by
  intro src src' hnear way _ a ha
  rw [h hnear ha]
  exact ha

/-- A reader is neutral if it reads values to their end and reordered values as the same. -/
theorem neutral_of_steady (hsteady : Steady read)
    (hwhole : ∀ ⦃way : Reading⦄ ⦃src : Source⦄ ⦃a : α⦄, read way src = .ok a →
      src.readWhole way = .ok ()) : Neutral read := by
  intro src src' hnear way hready a ha
  obtain ⟨room, hcheck⟩ := hready.exists_check (hwhole ha)
  -- both trees are those of values
  obtain ⟨v, w, rfl, rfl, h⟩ := hnear.reordered hready.distinct hcheck
  exact hsteady h (Reading.readWhole_toSource_iff.1 (hwhole ha))
    (Reading.readWhole_toSource_iff.1 (hnear.readWhole (hwhole ha))) a ha

theorem neutral_readText : Neutral fun _ => readText := by
  apply neutral_of_eq
  intro src src' hnear _ s hs
  obtain rfl := readText_eq_ok hs
  exact near_atom hnear

theorem neutral_readAny : Neutral readAny :=
  neutral_of_steady steady_readAny fun _ _ _ h => (then_eq_ok_iff.1 h).1

theorem neutral_readOptional (hread : Neutral read) :
    Neutral fun way => readOptional (read way) := by
  intro src src' hnear way hready a ha
  rcases readOptional_eq_ok ha with ⟨rfl, rfl⟩ | ⟨hnull, b, hb, rfl⟩
  · rw [near_atom hnear]
    rfl
  · have hnull' : src' ≠ .atom .null := by
      rintro rfl
      exact hnull (near_atom hnear.symm)
    show readOptional (read way) src' = _
    rw [readOptional_of_ne_null hnull', hread hnear hready b hb]
    rfl

theorem neutral_readList (hread : Neutral read) : Neutral (readList read) := by
  intro src src' hnear way hready values hvalues
  obtain ⟨items, inner, rfl, henter, hitems⟩ := readList_eq_ok_iff.1 hvalues
  obtain ⟨items', rfl, hall⟩ := near_list hnear
  have hin := hready.items henter
  refine readList_eq_ok_iff.2 ⟨items', inner, rfl, henter, ?_⟩
  exact forall₂_of_related hall hitems fun x hx y _ hxy a ha => hread hxy (hin x hx) a ha

theorem Neutral.map (hread : Neutral read) (f : α → β) :
    Neutral fun way src => f <$> read way src := by
  intro src src' hnear way hready b hb
  obtain ⟨a, ha, rfl⟩ := map_eq_ok_iff.1 hb
  exact map_eq_ok_iff.2 ⟨a, hread hnear hready a ha, rfl⟩

theorem Neutral.bind (hread : Neutral read) (f : α → Except ReadError β) :
    Neutral fun way src => read way src >>= f := by
  intro src src' hnear way hready b hb
  obtain ⟨a, ha, hb⟩ := bind_eq_ok_iff.1 hb
  exact bind_eq_ok_iff.2 ⟨a, hread hnear hready a ha, hb⟩

theorem neutral_readListOrNull (hread : Neutral read) : Neutral (readListOrNull read) :=
  (neutral_readOptional (neutral_readList hread)).map _

/-! ## One name among several -/

/-- Beside the name of a choice there is nothing to exchange. -/
theorem near_readNothing {mapToo : Bool} (h : Near src src') (hread : readNothing mapToo src = .ok ()) :
    src' = src := by
  match src with
  | .atom _ => exact near_atom h
  | .map [] fin =>
    obtain ⟨members', rfl, mid, hperm, hall⟩ := near_map h
    obtain rfl := hperm.nil_eq
    cases hall
    rfl
  | .map (_ :: _) _ => cases hread
  | .list _ _ => cases hread
  | .absent _ => cases hread

/-- Nor is there in a map with a choice as its only member. -/
theorem near_onlyMember {mapToo : Bool} {name : Quoted} {payload : Source} {fin : MapEnd}
    (h : Near (.map [(name, payload)] fin) src') (hread : readNothing mapToo payload = .ok ()) :
    src' = .map [(name, payload)] fin := by
  obtain ⟨members', rfl, mid, hperm, hall⟩ := near_map h
  obtain rfl := List.singleton_perm.1 hperm
  cases hall with
  | cons hm hrest =>
    cases hrest
    rw [Prod.ext hm.1 (near_readNothing hm.2 hread)]

theorem neutral_readChoice (choices : List (String × α)) (mapToo : Bool) :
    Neutral (readChoice choices mapToo) := by
  apply neutral_of_eq
  intro src src' hnear way a ha
  match src with
  | .atom _ => exact near_atom hnear
  | .map members fin =>
    cases way with
    | stored =>
      match members with
      | [(name, payload)] =>
        obtain ⟨_, -, h⟩ := bind_eq_ok_iff.1 ha
        obtain ⟨_, -, h⟩ := bind_eq_ok_iff.1 h
        exact near_onlyMember hnear (then_eq_ok_iff.1 h).1
      | [] => cases ha
      | _ :: _ :: _ => cases ha
    | direct room =>
      obtain ⟨_, -, ha⟩ := bind_eq_ok_iff.1 ha
      match members with
      | (name, payload) :: rest =>
        obtain ⟨_, -, h⟩ := bind_eq_ok_iff.1 ha
        obtain ⟨_, -, h⟩ := bind_eq_ok_iff.1 h
        obtain ⟨hnothing, h⟩ := then_eq_ok_iff.1 h
        obtain ⟨hlast, -⟩ := then_eq_ok_iff.1 h
        -- nothing stands before the last brace
        cases rest with
        | nil => exact near_onlyMember hnear hnothing
        | cons m rest => cases fin <;> cases hlast
      | [] => cases fin <;> cases ha
  | .list _ _ => cases way <;> cases ha
  | .absent _ => cases way <;> cases ha

end Source

/-! ## Fields of records -/

namespace Record

open Source

variable {o : Outline} {f : Field} {r r' : Record} {way inner : Reading}
  {ms ns : List (Quoted × Source)}

/-- Two records are written alike, and at most one exchange has taken place in each field. -/
structure Near (o : Outline) (r r' : Record) : Prop where
  isMap : (∃ ms, r = .byName ms) ↔ ∃ ns, r' = .byName ns
  fields : ∀ f ∈ o.fields, Option.Rel (fun m n => Source.Near m.2 n.2) (r.find? f) (r'.find? f)

/-- The values in the fields are ready to be read. -/
def Ready (o : Outline) (way : Reading) (r : Record) : Prop :=
  ∀ f ∈ o.fields, ∀ place x, r.find? f = some (place, x) → x.Ready way

/-- A reader of fields reads those of a record and those after an exchange as the same. -/
def Neutral (o : Outline) (get : Reading → Record → Placed α) : Prop :=
  ∀ ⦃r r' : Record⦄, Near o r r' → ∀ ⦃way : Reading⦄, r.Ready o way →
    ∀ a : α, get way r = .ok a → get way r' = .ok a

theorem Near.find?_eq_none (h : Near o r r') (hf : f ∈ o.fields) (hnone : r.find? f = none) :
    r'.find? f = none := by
  have hrel := h.fields f hf
  rw [hnone] at hrel
  cases hfind : r'.find? f with
  | none => rfl
  | some n =>
    rw [hfind] at hrel
    cases hrel

variable {read : Reading → Source → Except ReadError α}

/-- The value in a field is read as the same. -/
theorem Near.exists_field (h : Near o r r') (hf : f ∈ o.fields) (hready : r.Ready o way)
    (hread : Source.Neutral read) {a : α}
    (ha : ∃ place x, r.find? f = some (place, x) ∧ read way x = .ok a) :
    ∃ place y, r'.find? f = some (place, y) ∧ read way y = .ok a := by
  obtain ⟨place, x, hfind, ha⟩ := ha
  have hrel := h.fields f hf
  rw [hfind] at hrel
  cases hfind' : r'.find? f with
  | none =>
    rw [hfind'] at hrel
    cases hrel
  | some n =>
    rw [hfind'] at hrel
    cases hrel with
    | some hxy => exact ⟨n.1, n.2, rfl, hread hxy (hready f hf place x hfind) a ha⟩

theorem neutral_required (hf : f ∈ o.fields) (hread : Source.Neutral read) :
    Neutral o fun way r => r.required f (read way) := by
  intro r r' h way hready a ha
  rw [required_eq_ok_iff] at ha ⊢
  exact h.exists_field hf hready hread ha

theorem neutral_withDefault (hf : f ∈ o.fields) (default : α) (hread : Source.Neutral read) :
    Neutral o fun way r => r.withDefault f default (read way) := by
  intro r r' h way hready a ha
  rw [withDefault_eq_ok_iff] at ha ⊢
  rcases ha with ⟨hnone, ha⟩ | ha
  · exact .inl ⟨h.find?_eq_none hf hnone, ha⟩
  · exact .inr (h.exists_field hf hready hread ha)

theorem neutral_optional (hf : f ∈ o.fields) (hread : Source.Neutral read) :
    Neutral o fun way r => r.optional f (read way) := by
  intro r r' h way hready a ha
  have hread' := neutral_readOptional hread
  cases r with
  | byName ms =>
    obtain ⟨ns, rfl⟩ := h.isMap.1 ⟨ms, rfl⟩
    exact neutral_withDefault hf none hread' h hready a ha
  | byPlace p items =>
    cases r' with
    | byName ns =>
      obtain ⟨_, hms⟩ := h.isMap.2 ⟨ns, rfl⟩
      cases hms
    | byPlace p' items' => exact neutral_required hf hread' h hready a ha

theorem Neutral.map {get : Reading → Record → Placed α} (hget : Neutral o get) (g : α → β) :
    Neutral o fun way r => g <$> get way r := by
  intro r r' h way hready b hb
  obtain ⟨a, ha, rfl⟩ := Placed.map_eq_ok_iff.1 hb
  exact Placed.map_eq_ok_iff.2 ⟨a, hget h hready a ha, rfl⟩

theorem Neutral.seq {get : Reading → Record → Placed (α → β)} {next : Reading → Record → Placed α}
    (hget : Neutral o get) (hnext : Neutral o next) :
    Neutral o fun way r => get way r <*> next way r := by
  intro r r' h way hready b hb
  obtain ⟨g, a, hg, ha, rfl⟩ := Placed.seq_eq_ok_iff.1 hb
  exact Placed.seq_eq_ok_iff.2 ⟨g, a, hget h hready g hg, hnext h hready a ha, rfl⟩

/-! ## Maps that are records -/

theorem exists_mem_of_find? {place : Nat} {x : Source}
    (h : (byName ms).find? f = some (place, x)) : ∃ q, (q, x) ∈ ms ∧ f.matchesName q = true := by
  have hfind := find?_byName ms f
  rw [h] at hfind
  obtain ⟨⟨q, _⟩, hq, rfl⟩ := Option.map_eq_some_iff.1 hfind.symm
  have hname := List.find?_some hq
  exact ⟨q, List.mem_of_find?_eq_some hq, hname⟩

theorem find?_ne_none {m : Quoted × Source} (hm : m ∈ ms) (hname : f.matchesName m.1 = true) :
    (byName ms).find? f ≠ none := by
  intro hnone
  have hfind := find?_byName ms f
  rw [hnone] at hfind
  have hall := List.find?_eq_none.1 (Option.map_eq_none_iff.1 hfind.symm) m hm
  exact hall hname

/-- No field is given twice by the members of a map. -/
def FitsMembers (o : Outline) (ms : List (Quoted × Source)) : Prop :=
  ∀ f ∈ o.fields, (ms.map (·.1)).countP f.matchesName ≤ 1

/-- At most one member gives a field. -/
theorem FitsMembers.eq_of_matchesName (h : FitsMembers o ms) (hf : f ∈ o.fields)
    {m n : Quoted × Source} (hm : m ∈ ms) (hn : n ∈ ms) (hmf : f.matchesName m.1 = true)
    (hnf : f.matchesName n.1 = true) : m = n := by
  have hlength := h f hf
  rw [List.countP_map, List.countP_eq_length_filter] at hlength
  exact eq_of_length_filter_le_one hlength hm hmf hn hnf

theorem FitsMembers.matched (h : FitsMembers o ms) {R : Source → Source → Prop}
    (hmatched : Matched R ms ns) : FitsMembers o ns := by
  intro f hf
  rw [← hmatched.names_perm.countP_eq]
  exact h f hf

/-- An exchange leaves the fields of a map as they are, apart from exchanges inside. -/
theorem near_byName (h : Matched Source.Near ms ns) (hfits : FitsMembers o ms) :
    Near o (byName ms) (byName ns) := by
  refine ⟨iff_of_true ⟨ms, rfl⟩ ⟨ns, rfl⟩, fun f hf => ?_⟩
  have hfits' := hfits.matched h
  cases hm : (byName ms).find? f with
  | some m =>
    obtain ⟨q, hq, hname⟩ := exists_mem_of_find? hm
    obtain ⟨n, hn, hqn, hnear⟩ := h.exists_mem_after hq
    have hnname : f.matchesName n.1 = true := hqn ▸ hname
    cases hk : (byName ns).find? f with
    | none => exact absurd hk (find?_ne_none hn hnname)
    | some k =>
      -- what is found after the exchange is the counterpart of what is found before
      obtain ⟨q', hq', hname'⟩ := exists_mem_of_find? hk
      obtain rfl := hfits'.eq_of_matchesName hf hn hq' hnname hname'
      exact .some hnear
  | none =>
    cases hk : (byName ns).find? f with
    | none => exact .none
    | some k =>
      obtain ⟨q', hq', hname'⟩ := exists_mem_of_find? hk
      obtain ⟨m, hm', hqm, -⟩ := h.exists_mem hq'
      exact absurd hm (find?_ne_none hm' (hqm ▸ hname'))

theorem ready_byName (h : ∀ m ∈ ms, m.2.Ready way) : (byName ms).Ready o way := by
  intro f _ place x hfind
  obtain ⟨q, hq, -⟩ := exists_mem_of_find? hfind
  exact h (q, x) hq

theorem text_getD_text? {q : Quoted} (h : ∃ name, q = .text name) : .text (q.text?.getD "") = q := by
  obtain ⟨name, rfl⟩ := h
  rfl

/-- When the members of a map are read without fault, apart from the values of the fields: the map is
closed, the names are texts and give no field twice, and what is no field is read as such. -/
theorem readMembers_eq_ok_iff (ho : o.Separate) {keep : Bool} {fin : MapEnd} :
    readMembers keep o way fin 0 [] ms = .ok () ↔
      fin = .closed ∧ (∀ m ∈ ms, ∃ name, m.1 = .text name) ∧ FitsMembers o ms ∧
        ∀ m ∈ ms, o.find? m.1 = none → readOther keep way m.2 = .ok () := by
  constructor
  · intro h
    obtain ⟨hfin, ⟨names, hnames, hfits⟩, hothers⟩ := frame_of_readMembers ho h
    refine ⟨hfin, fun m hm => ?_, fun f hf => ?_, hothers⟩
    · have hm : m.1 ∈ names.map Quoted.text := hnames ▸ List.mem_map_of_mem hm
      obtain ⟨name, -, hname⟩ := List.mem_map.1 hm
      exact ⟨name, hname.symm⟩
    · rw [hnames, List.countP_map]
      exact hfits f hf
  · rintro ⟨rfl, htexts, hfits, hothers⟩
    have hnames : ms.map (·.1) = (ms.map (·.1.text?.getD "")).map Quoted.text := by
      rw [List.map_map]
      exact List.map_congr_left fun m hm => (text_getD_text? (htexts m hm)).symm
    -- the values do not matter any more, and without them the map is as if it were stored
    have hbare : readMembers keep o way .closed 0 [] ms = readMembers keep o .stored .closed 0 []
        (Json.membersToSource (ms.map fun m => (m.1.text?.getD "", .null))) := by
      apply readMembers_congr
      rw [Json.membersToSource_eq_map, List.map_map, List.forall₂_map_right_iff, List.forall₂_same]
      exact fun m hm => ⟨text_getD_text? (htexts m hm), fun hnone => ⟨hothers m hm hnone, rfl⟩⟩
    rw [hbare, readMembers_stored_iff ho]
    refine Outline.fits_map_iff.2 fun f hf => ?_
    have hcount := hfits f hf
    rw [hnames, List.countP_map] at hcount
    rw [List.map_map]
    exact hcount

theorem readOther_near {keep : Bool} {src src' : Source} (h : Source.Near src src')
    (hread : readOther keep way src = .ok ()) : readOther keep way src' = .ok () := by
  cases way with
  | stored => rfl
  | direct room =>
    cases keep with
    | false => exact h.ignore hread
    | true => exact h.check hread

/-- A map is read without fault after an exchange if it is so before. -/
theorem readMembers_near (ho : o.Separate) (h : Matched Source.Near ms ns) {keep : Bool}
    {fin : MapEnd} (hframe : readMembers keep o way fin 0 [] ms = .ok ()) :
    readMembers keep o way fin 0 [] ns = .ok () := by
  obtain ⟨rfl, htexts, hfits, hothers⟩ := (readMembers_eq_ok_iff ho).1 hframe
  refine (readMembers_eq_ok_iff ho).2 ⟨rfl, fun n hn => ?_, hfits.matched h, fun n hn hnone => ?_⟩
  · obtain ⟨m, hm, hnm, -⟩ := h.exists_mem hn
    exact hnm ▸ htexts m hm
  · obtain ⟨m, hm, hnm, hnear⟩ := h.exists_mem hn
    exact readOther_near hnear (hothers m hm (hnm ▸ hnone))

/-- What a map holds in no field, and was read to its end, is the same after an exchange. -/
theorem others_near (h : Matched Source.Near ms ns)
    (htexts : ∀ m ∈ ms, ∃ name, m.1 = .text name) (hnodup : (ms.filterMap (·.1.text?)).Nodup)
    (hkept : ∀ m ∈ ms, o.find? m.1 = none → m.2.Distinct ∧ ∃ room, m.2.check room = .ok ()) :
    others o ms = others o ns := by
  obtain ⟨mid, hperm, hall⟩ := h
  have hmid : ∀ m ∈ mid, o.find? m.1 = none → ∀ y, Source.Near m.2 y → m.2.toJson = y.toJson := by
    intro m hm hnone y hy
    obtain ⟨hdistinct, room, hcheck⟩ := hkept m (hperm.mem_iff.2 hm) hnone
    exact hy.toJson_eq hdistinct hcheck
  have hsame : Source.membersToJson (mid.filter fun m => (o.find? m.1).isNone)
      = Source.membersToJson (ns.filter fun m => (o.find? m.1).isNone) := by
    clear hperm
    induction hall with
    | nil => rfl
    | @cons m n mid ns hmn _ ih =>
      obtain ⟨hm, hmid⟩ := List.forall_mem_cons.1 hmid
      rw [List.filter_cons, List.filter_cons, hmn.1]
      cases hfind : o.find? m.1 with
      | some f => exact ih hmid
      | none =>
        show (m.1.text?.getD "", m.2.toJson) :: _ = (n.1.text?.getD "", n.2.toJson) :: _
        rw [hmn.1, hm hfind _ hmn.2, ih hmid]
  rw [others, others, ← hsame, Json.membersToJson_eq_map, Json.membersToJson_eq_map]
  refine Json.ofMembers_eq_of_perm ?_ ((hperm.filter _).map _)
  -- the names that are left are some of the names of the map
  rw [List.map_map]
  refine List.Nodup.sublist (List.filter_sublist.map _) ?_
  show (ms.map (·.1.text?.getD "")).Nodup
  rw [map_names_eq htexts]
  exact hnodup

/-! ## Reading records -/

theorem readItems_congr {xs ys : List Source} {fin : ListEnd} (h : xs.length = ys.length) :
    readItems o way xs fin = readItems o way ys fin := by
  have hempty (n : Nat) : (xs.drop n).isEmpty = (ys.drop n).isEmpty := by
    rw [Bool.eq_iff_iff, List.isEmpty_iff, List.isEmpty_iff, List.drop_eq_nil_iff,
      List.drop_eq_nil_iff, h]
  have hdrop (n : Nat) : (xs.drop n).length = (ys.drop n).length := by
    rw [List.length_drop, List.length_drop, h]
  simp only [readItems, readEnd, readStoredEnd, hempty, hdrop, h]

theorem near_byPlace {xs ys : List Source} (h : List.Forall₂ Source.Near xs ys) :
    Near o (byPlace o xs) (byPlace o ys) := by
  refine ⟨?_, fun f _ => ?_⟩
  · constructor
    · rintro ⟨_, h⟩
      cases h
    · rintro ⟨_, h⟩
      cases h
  · have hlength := h.length_eq
    show Option.Rel _ (xs[f.place]?.map _) (ys[f.place]?.map _)
    by_cases hlt : f.place < xs.length
    · rw [List.getElem?_eq_getElem hlt, List.getElem?_eq_getElem (hlength ▸ hlt)]
      exact .some (h.get hlt (hlength ▸ hlt))
    · rw [List.getElem?_eq_none (Nat.le_of_not_lt hlt),
        List.getElem?_eq_none (hlength ▸ Nat.le_of_not_lt hlt)]
      exact .none

theorem ready_byPlace {xs : List Source} (h : ∀ x ∈ xs, x.Ready way) :
    (byPlace o xs).Ready o way := by
  intro f _ place x hfind
  obtain ⟨item, hitem, hx⟩ := Option.map_eq_some_iff.1 hfind
  obtain ⟨-, rfl⟩ := Prod.mk.inj hx
  exact h item (List.mem_of_getElem? hitem)

/-- A map that is read as a record is so after an exchange, if its fields are ready. -/
theorem read_map_near (ho : o.Separate) {body : Reading → Record → Placed α}
    (hbody : Neutral o body) (h : Matched Source.Near ms ns) {fin : MapEnd} {a : α}
    (henter : way.enter = .ok inner) (hready : (byName ms).Ready o inner)
    (ha : Record.read o body way (.map ms fin) = .ok a) :
    Record.read o body way (.map ns fin) = .ok a := by
  rw [Record.read, henter] at ha ⊢
  obtain ⟨hframe, ha⟩ := frame_eq_ok_iff.1 ha
  obtain ⟨-, -, hfits, -⟩ := (readMembers_eq_ok_iff ho).1 hframe
  have hnear := near_byName h hfits
  exact frame_eq_ok_iff.2 ⟨readMembers_near ho h hframe, hbody hnear hready a ha⟩

theorem neutral_read (ho : o.Separate) {body : Reading → Record → Placed α}
    (hbody : Neutral o body) : Source.Neutral (Record.read o body) := by
  intro src src' hnear way hready a ha
  cases src with
  | map ms fin =>
    obtain ⟨inner, henter, -⟩ := bind_eq_ok_iff.1 ha
    obtain ⟨ns, rfl, hmatched⟩ := near_map hnear
    exact read_map_near ho hbody hmatched henter (ready_byName (hready.members henter)) ha
  | list items fin =>
    obtain ⟨inner, henter, ha⟩ := bind_eq_ok_iff.1 ha
    obtain ⟨items', rfl, hitems⟩ := near_list hnear
    obtain ⟨hframe, ha⟩ := frame_eq_ok_iff.1 ha
    refine bind_eq_ok_iff.2 ⟨inner, henter, frame_eq_ok_iff.2 ⟨?_, ?_⟩⟩
    · rw [← readItems_congr hitems.length_eq]
      exact hframe
    · exact hbody (near_byPlace hitems) (ready_byPlace (hready.items henter)) a ha
  | _ => cases ha

theorem neutral_readTuple (ho : o.Separate) {body : Reading → Record → Placed α}
    (hbody : Neutral o body) : Source.Neutral (readTuple o body) := by
  intro src src' hnear way hready a ha
  cases src with
  | list items fin =>
    have hread := neutral_read ho hbody hnear hready a ha
    obtain ⟨items', rfl, -⟩ := near_list hnear
    exact hread
  | _ => cases ha

theorem neutral_readMap (ho : o.Separate)
    {body : Reading → Record → List (String × Json) → Placed α}
    (hbody : ∀ extra, Neutral o fun way r => body way r extra) :
    Source.Neutral (readMap o body) := by
  intro src src' hnear way hready a ha
  obtain ⟨ms, fin, inner, rfl, henter, hframe, ha⟩ := parts_of_readMap ha
  obtain ⟨ns, rfl, hmatched⟩ := near_map hnear
  obtain ⟨-, htexts, hfits, hothers⟩ := (readMembers_eq_ok_iff ho).1 hframe
  have hmembers := hready.members henter
  have hnodup := (distinct_map_iff.1 hready.distinct).1
  -- what is carried along was read to its end, now or before
  have hkept : ∀ m ∈ ms, o.find? m.1 = none →
      m.2.Distinct ∧ ∃ room, m.2.check room = .ok () := by
    intro m hm hnone
    refine ⟨(hmembers m hm).distinct, (hmembers m hm).exists_check ?_⟩
    have hother := hothers m hm hnone
    cases inner with
    | direct room => exact hother
    | stored => rfl
  rw [readMap_of_frame henter (readMembers_near ho hmatched hframe),
    ← others_near hmatched htexts hnodup hkept, Placed.toExcept_eq_ok_iff]
  exact hbody _ (near_byName hmatched hfits) (ready_byName hmembers) a ha

end Record

end QueryShaping
