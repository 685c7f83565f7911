import QueryShaping.Proofs.Nodes

/-!
# Values whose members stand in another order

The members of a map have no order of their own: a writer lists them in one order, a store keeps them
in another. Two values with one normal form, neither of which names a member twice, are the same value
for every reader.

## What this module delivers

- `Json.normal_normal`, `Json.distinct_normal`: the normal form is one.
- `Json.Reordered`: values that differ only in the order of their members.
- `Json.Reordered.of?`, `Json.Reordered.fits`, `Json.Reordered.others`: what they hold in a field, and
  what in no field.
- `Json.depth`, `Source.check_toSource_iff`: how much room a value takes when it is read from a text.
-/

set_option autoImplicit false

namespace QueryShaping

/-! ## Names and fields -/

namespace Outline

/-- No field is given twice by the names. -/
def FitsNames (o : Outline) (names : List String) : Prop :=
  ∀ f ∈ o.fields, names.countP f.goesBy ≤ 1

instance (o : Outline) (names : List String) : Decidable (o.FitsNames names) :=
  inferInstanceAs (Decidable (∀ f ∈ o.fields, _ ≤ _))

/-- Whether a map has the shape of a record depends on its names only. -/
theorem fits_map_iff {o : Outline} {members : List (String × Json)} :
    o.Fits (.map members) ↔ o.FitsNames (members.map (·.1)) := by
  refine forall₂_congr fun f _ => ?_
  rw [List.countP_map, List.countP_eq_length_filter]
  exact Iff.rfl

theorem fits_map {o : Outline} {members : List (String × Json)} (names : List String)
    (hnames : members.map (·.1) = names) (h : o.FitsNames names) : o.Fits (.map members) := by
  rw [fits_map_iff, hnames]
  exact h

/-- A map that names no member twice gives no field twice, where each field goes by one name. -/
theorem fits_map_of_nodup {o : Outline} {members : List (String × Json)}
    (ho : ∀ f ∈ o.fields, f.aliases = []) (h : (members.map (·.1)).Nodup) :
    o.Fits (.map members) := by
  rw [fits_map_iff]
  intro f hf
  have hgoesBy : f.goesBy = (· == f.name) := by
    funext name
    rw [Field.goesBy, ho f hf]
    simp
  rw [hgoesBy]
  exact List.nodup_iff_count_le_one.1 h f.name

end Outline

namespace Json

/-! ## Members in ascending order -/

/-- The names of the members ascend. -/
def Ascending (members : List (String × Json)) : Prop := members.Pairwise fun m n => m.1 < n.1

theorem Ascending.nodup {members : List (String × Json)} (h : Ascending members) :
    (members.map (·.1)).Nodup := by
  rw [List.Nodup, List.pairwise_map]
  refine h.imp fun {m n} hlt heq => ?_
  rw [heq] at hlt
  exact String.lt_irrefl _ hlt

/-- Members in ascending order have only one order. -/
theorem Ascending.eq_of_perm {xs ys : List (String × Json)} (hx : Ascending xs) (hy : Ascending ys)
    (h : xs.Perm ys) : xs = ys :=
  h.eq_of_pairwise (fun _ _ _ _ hlt hgt => absurd hgt (String.lt_asymm hlt)) hx hy

theorem mem_insertMember {name : String} {value : Json} {m : String × Json} :
    ∀ {members : List (String × Json)}, m ∈ insertMember name value members →
      m = (name, value) ∨ m ∈ members := by
  intro members
  induction members with
  | nil =>
    intro hm
    exact .inl (List.mem_singleton.1 hm)
  | cons n rest ih =>
    intro hm
    unfold insertMember at hm
    split at hm
    · exact List.mem_cons.1 hm
    · split at hm
      · rcases List.mem_cons.1 hm with rfl | hm
        · exact .inl rfl
        · exact .inr (List.mem_cons_of_mem _ hm)
      · rcases List.mem_cons.1 hm with rfl | hm
        · exact .inr List.mem_cons_self
        · exact (ih hm).imp_right (List.mem_cons_of_mem _)

theorem Ascending.insertMember {members : List (String × Json)} (h : Ascending members)
    (name : String) (value : Json) : Ascending (insertMember name value members) := by
  induction members with
  | nil => exact List.pairwise_singleton _ _
  | cons m rest ih =>
    obtain ⟨other, kept⟩ := m
    obtain ⟨hfirst, hrest⟩ := List.pairwise_cons.1 h
    unfold Json.insertMember
    split
    · next hlt =>
      refine List.pairwise_cons.2 ⟨fun n hn => ?_, h⟩
      rcases List.mem_cons.1 hn with rfl | hn
      · exact hlt
      · exact String.lt_trans hlt (hfirst n hn)
    · next hnot =>
      split
      · next heq =>
        subst heq
        exact List.pairwise_cons.2 ⟨hfirst, hrest⟩
      · next hne =>
        -- the name comes after the first one
        have hlt : other < name := by
          by_contra hge
          exact hne (String.le_antisymm (String.not_lt.1 hge) (String.not_lt.1 hnot))
        refine List.pairwise_cons.2 ⟨fun n hn => ?_, ih hrest⟩
        rcases mem_insertMember hn with rfl | hn
        · exact hlt
        · exact hfirst n hn

theorem ascending_ofMembers (members : List (String × Json)) : Ascending (ofMembers members) := by
  have hfold : ∀ todo done : List (String × Json), Ascending done →
      Ascending (todo.foldl (fun done m => insertMember m.1 m.2 done) done) := by
    intro todo
    induction todo with
    | nil => exact fun done hdone => hdone
    | cons m rest ih => exact fun done hdone => ih _ (hdone.insertMember m.1 m.2)
  exact hfold members [] List.Pairwise.nil

/-- Members that are in order already are left as they are. -/
theorem ofMembers_of_ascending {members : List (String × Json)} (h : Ascending members) :
    ofMembers members = members :=
  (ascending_ofMembers members).eq_of_perm h (ofMembers_perm h.nodup)

/-- Members of different names are the same in order, in whatever order they stood. -/
theorem ofMembers_eq_of_perm {xs ys : List (String × Json)} (hx : (xs.map (·.1)).Nodup)
    (h : xs.Perm ys) : ofMembers xs = ofMembers ys := by
  have hy : (ys.map (·.1)).Nodup := (h.map _).nodup_iff.1 hx
  have hperm := (ofMembers_perm hx).trans (h.trans (ofMembers_perm hy).symm)
  exact (ascending_ofMembers xs).eq_of_perm (ascending_ofMembers ys) hperm

/-! ## Normal forms -/

theorem mem_of_mem_ofMembers {members : List (String × Json)} {m : String × Json}
    (h : m ∈ ofMembers members) : m ∈ members := by
  have hfold : ∀ todo done : List (String × Json),
      m ∈ todo.foldl (fun done m => insertMember m.1 m.2 done) done → m ∈ done ∨ m ∈ todo := by
    intro todo
    induction todo with
    | nil => exact fun done hm => .inl hm
    | cons n rest ih =>
      intro done hm
      rcases ih _ hm with hm | hm
      · rcases mem_insertMember hm with rfl | hm
        · exact .inr List.mem_cons_self
        · exact .inl hm
      · exact .inr (List.mem_cons_of_mem _ hm)
  exact (hfold members [] h).resolve_left nofun

/-- Members in order whose values are in normal form are their own normal form. -/
theorem normal_map_of_ascending {members : List (String × Json)} (h : Ascending members)
    (hvalues : ∀ m ∈ members, m.2.normal = m.2) : (map members).normal = map members := by
  have hmap : normalMembers members = members := by
    rw [normalMembers_eq_map]
    refine (List.map_congr_left fun m hm => ?_).trans (List.map_id members)
    rw [hvalues m hm]
    rfl
  rw [normal, hmap, ofMembers_of_ascending h]

theorem normal_normal (v : Json) : v.normal.normal = v.normal := by
  induction v using Json.induction with
  | null => rfl
  | bool b => rfl
  | number n => rfl
  | text s => rfl
  | list items ih =>
    rw [normal, normal, normalItems_eq_map, normalItems_eq_map, List.map_map]
    exact congrArg list (List.map_congr_left ih)
  | map members ih =>
    refine normal_map_of_ascending (ascending_ofMembers _) fun m hm => ?_
    have hm := mem_of_mem_ofMembers hm
    rw [normalMembers_eq_map] at hm
    obtain ⟨n, hn, rfl⟩ := List.mem_map.1 hm
    exact ih n hn

theorem distinct_normal (v : Json) : v.normal.Distinct := by
  induction v using Json.induction with
  | null => trivial
  | bool b => trivial
  | number n => trivial
  | text s => trivial
  | list items ih =>
    rw [normal, distinct_list_iff, normalItems_eq_map]
    exact List.forall_mem_map.2 ih
  | map members ih =>
    rw [normal, distinct_map_iff]
    refine ⟨(ascending_ofMembers _).nodup, fun m hm => ?_⟩
    have hm := mem_of_mem_ofMembers hm
    rw [normalMembers_eq_map] at hm
    obtain ⟨n, hn, rfl⟩ := List.mem_map.1 hm
    exact ih n hn

theorem names_normalMembers (members : List (String × Json)) :
    (normalMembers members).map (·.1) = members.map (·.1) := by
  rw [normalMembers_eq_map, List.map_map]
  rfl

/-- In normal form the members of a map that names none twice are the same, with their values in normal
form. -/
theorem Distinct.normal_map_perm {members : List (String × Json)} (h : (map members).Distinct) :
    (ofMembers (normalMembers members)).Perm (members.map fun m => (m.1, m.2.normal)) := by
  rw [← normalMembers_eq_map]
  apply ofMembers_perm
  rw [names_normalMembers]
  exact ((distinct_map_iff members).1 h).1

/-! ## Reordered values -/

/-- Two values differ only in the order of the members of their maps, which name none twice. -/
structure Reordered (v w : Json) : Prop where
  left : v.Distinct
  right : w.Distinct
  normal : v.normal = w.normal

/-- A value and its normal form. -/
theorem Distinct.reordered_normal {v : Json} (h : v.Distinct) : v.Reordered v.normal :=
  ⟨h, distinct_normal v, (normal_normal v).symm⟩

namespace Reordered

variable {v w : Json}

theorem symm (h : v.Reordered w) : w.Reordered v := ⟨h.right, h.left, h.normal.symm⟩

theorem text_iff (h : v.Reordered w) {s : String} : v = .text s ↔ w = .text s := by
  rw [← normal_eq_text_iff, h.normal, normal_eq_text_iff]

theorem null_iff (h : v.Reordered w) : v = .null ↔ w = .null := by
  have hnull (x : Json) : x.normal = .null ↔ x = .null := by cases x <;> simp [Json.normal]
  rw [← hnull, h.normal, hnull]

theorem bool_iff (h : v.Reordered w) {b : Bool} : v = .bool b ↔ w = .bool b := by
  have hbool (x : Json) : x.normal = .bool b ↔ x = .bool b := by cases x <;> simp [Json.normal]
  rw [← hbool, h.normal, hbool]

/-- A reordered list has the same items in the same order, which are reordered themselves. -/
theorem of_list {items : List Json} (h : (list items).Reordered w) :
    ∃ items', w = list items' ∧ List.Forall₂ Reordered items items' := by
  obtain ⟨hv, hw, hnormal⟩ := h
  cases w with
  | list items' =>
    refine ⟨items', rfl, ?_⟩
    rw [distinct_list_iff] at hv hw
    rw [Json.normal, Json.normal, normalItems_eq_map, normalItems_eq_map] at hnormal
    have hitems := Json.list.inj hnormal
    clear hnormal
    induction items generalizing items' with
    | nil =>
      obtain rfl := List.map_eq_nil_iff.1 hitems.symm
      exact .nil
    | cons x items ih =>
      cases items' with
      | nil => cases hitems
      | cons y items' =>
        obtain ⟨hxy, hitems⟩ := List.cons.inj hitems
        obtain ⟨hx, hv⟩ := List.forall_mem_cons.1 hv
        obtain ⟨hy, hw⟩ := List.forall_mem_cons.1 hw
        exact .cons ⟨hx, hy, hxy⟩ (ih hv items' hw hitems)
  | _ => simp [Json.normal] at hnormal

theorem exists_map {members : List (String × Json)} (h : (map members).Reordered w) :
    ∃ members', w = map members' := by
  have hnormal := h.normal
  cases w with
  | map members' => exact ⟨members', rfl⟩
  | _ => simp [Json.normal] at hnormal

section Maps

variable {members members' : List (String × Json)}
  (h : (Json.map members).Reordered (Json.map members'))

include h

theorem normal_perm : (members.map fun m => (m.1, m.2.normal)).Perm
    (members'.map fun m => (m.1, m.2.normal)) := by
  have hperm := h.left.normal_map_perm
  rw [Json.map.inj h.normal] at hperm
  exact hperm.symm.trans h.right.normal_map_perm

theorem names_perm : (members.map (·.1)).Perm (members'.map (·.1)) := by
  have hnames := h.normal_perm.map (·.1)
  rwa [List.map_map, List.map_map] at hnames

theorem exists_mem {name : String} {x : Json} (hx : (name, x) ∈ members) :
    ∃ y, (name, y) ∈ members' ∧ x.Reordered y := by
  have hmem := h.normal_perm.mem_iff.1 (List.mem_map_of_mem hx)
  obtain ⟨⟨name', y⟩, hy, heq⟩ := List.mem_map.1 hmem
  obtain ⟨rfl, hxy⟩ := Prod.mk.inj heq
  have hx₁ := ((distinct_map_iff members).1 h.left).2 _ hx
  have hy₁ := ((distinct_map_iff members').1 h.right).2 _ hy
  exact ⟨y, hy, hx₁, hy₁, hxy.symm⟩

end Maps

/-! ## Fields of reordered values -/

/-- Reordered values have the same shape. -/
theorem fits {o : Outline} (h : v.Reordered w) (hv : o.Fits v) : o.Fits w := by
  cases v with
  | map members =>
    -- the shape is a matter of the names, and those are the same
    obtain ⟨members', rfl⟩ := h.exists_map
    rw [Outline.fits_map_iff] at hv ⊢
    intro f hf
    rw [← h.names_perm.countP_eq]
    exact hv f hf
  | list items =>
    obtain ⟨items', rfl, hitems⟩ := h.of_list
    show items'.length ≤ o.fields.length
    rw [← hitems.length_eq]
    exact hv
  | _ => exact hv.elim

/-- What one of them holds in a field, the other holds reordered. -/
theorem of? {o : Outline} {f : Field} (h : v.Reordered w) (hv : o.Fits v) (hf : f ∈ o.fields)
    {x : Json} (hx : f.of? v = some x) : ∃ y, f.of? w = some y ∧ x.Reordered y := by
  cases v with
  | map members =>
    have hw := h.fits hv
    obtain ⟨members', rfl⟩ := h.exists_map
    obtain ⟨name, hname, hmem⟩ := (hv.of?_eq_some_iff hf).1 hx
    obtain ⟨y, hy, hxy⟩ := h.exists_mem hmem
    exact ⟨y, (hw.of?_eq_some_iff hf).2 ⟨name, hname, hy⟩, hxy⟩
  | list items =>
    obtain ⟨items', rfl, hitems⟩ := h.of_list
    have hat (items : List Json) : f.of? (.list items) = items[f.place]? := by
      rw [Field.of?, Field.at?]
      cases items[f.place]? <;> rfl
    rw [hat] at hx ⊢
    obtain ⟨hlt, rfl⟩ := List.getElem?_eq_some_iff.1 hx
    have hlt' : f.place < items'.length := hitems.length_eq ▸ hlt
    exact ⟨_, List.getElem?_eq_getElem hlt', hitems.get hlt hlt'⟩
  | _ => exact hv.elim

theorem of?_eq_none {o : Outline} {f : Field} (h : v.Reordered w) (hv : o.Fits v)
    (hf : f ∈ o.fields) (hnone : f.of? v = none) : f.of? w = none := by
  cases hw : f.of? w with
  | none => rfl
  | some y =>
    obtain ⟨x, hx, -⟩ := h.symm.of? (h.fits hv) hf hw
    cases hnone.symm.trans hx

end Reordered

end Json

/-- What a map holds in no field of a record, in normal form. -/
theorem Record.others_toSource (o : Outline) (members : List (String × Json)) :
    others o (Json.membersToSource members)
      = Json.ofMembers ((members.map fun m => (m.1, m.2.normal)).filter
          fun m => (o.find? (.text m.1)).isNone) := by
  rw [others, Json.membersToSource_eq_map, List.filter_map, Json.membersToJson_eq_map, List.map_map,
    List.filter_map]
  congr 2
  funext m
  exact congrArg (Prod.mk m.1) (Json.toJson_toSource m.2)

theorem Json.Reordered.others {o : Outline} {members members' : List (String × Json)}
    (h : (Json.map members).Reordered (Json.map members')) :
    Record.others o (Json.membersToSource members)
      = Record.others o (Json.membersToSource members') := by
  rw [Record.others_toSource, Record.others_toSource]
  apply Json.ofMembers_eq_of_perm
  · -- the names that are left are some of the names of the map
    have hnames := ((Json.distinct_map_iff members).1 h.left).1
    refine List.Nodup.sublist (List.filter_sublist.map _) ?_
    rwa [List.map_map]
  · exact h.normal_perm.filter _

/-! ## Room -/

namespace Json

mutual
/-- The levels of lists and maps in a value. Uses auxiliary list forms so the nested recursion is
structural. -/
def depth : Json → Nat
  | .list items => depthItems items + 1
  | .map members => depthMembers members + 1
  | _ => 0
/-- The levels in the items of a list. -/
def depthItems : List Json → Nat
  | [] => 0
  | x :: rest => max (depth x) (depthItems rest)
/-- The levels in the values of the members of a map. -/
def depthMembers : List (String × Json) → Nat
  | [] => 0
  | (_, x) :: rest => max (depth x) (depthMembers rest)
end

theorem depthItems_le_iff {items : List Json} {room : Nat} :
    depthItems items ≤ room ↔ ∀ x ∈ items, x.depth ≤ room := by
  induction items with
  | nil => simp [depthItems]
  | cons x rest ih => rw [depthItems, Nat.max_le, ih, List.forall_mem_cons]

theorem depthMembers_le_iff {members : List (String × Json)} {room : Nat} :
    depthMembers members ≤ room ↔ ∀ m ∈ members, m.2.depth ≤ room := by
  induction members with
  | nil => simp [depthMembers]
  | cons m rest ih => rw [depthMembers, Nat.max_le, ih, List.forall_mem_cons]

/-- What is inside a value is less deep than the value. -/
theorem depth_lt_of_mem_parts {v x : Json} (hx : x ∈ v.parts) : x.depth < v.depth := by
  cases v with
  | list items => exact Nat.lt_succ_of_le (depthItems_le_iff.1 (Nat.le_refl _) x hx)
  | map members =>
    obtain ⟨m, hm, rfl⟩ := List.mem_map.1 hx
    exact Nat.lt_succ_of_le (depthMembers_le_iff.1 (Nat.le_refl _) m hm)
  | _ => cases hx

end Json

/-- What has the shape of a record is a map or a list. -/
theorem Outline.Fits.depth_pos {o : Outline} {v : Json} (h : o.Fits v) : 0 < v.depth := by
  cases v with
  | map members => exact Nat.succ_pos _
  | list items => exact Nat.succ_pos _
  | _ => exact h.elim

namespace Source

theorem checkItems_eq_ok_iff {room : Nat} {items : List Source} :
    checkItems room items = .ok () ↔ ∀ x ∈ items, x.check room = .ok () := by
  induction items with
  | nil => simp [checkItems]
  | cons x rest ih =>
    rw [checkItems, List.forall_mem_cons, ← ih]
    exact then_eq_ok_iff

theorem checkMembers_eq_ok_iff {room : Nat} {members : List (String × Json)} :
    checkMembers room (Json.membersToSource members) = .ok () ↔
      ∀ m ∈ members, m.2.toSource.check room = .ok () := by
  induction members with
  | nil => simp [checkMembers, Json.membersToSource]
  | cons m rest ih =>
    rw [Json.membersToSource, checkMembers, List.forall_mem_cons, ← ih]
    exact then_eq_ok_iff

/-- Reading a value to its end takes as much room as the value is deep. -/
theorem check_toSource_iff {v : Json} :
    ∀ {room : Nat}, v.toSource.check room = .ok () ↔ v.depth ≤ room := by
  induction v using Json.induction with
  | null => exact iff_of_true rfl (Nat.zero_le _)
  | bool b => exact iff_of_true rfl (Nat.zero_le _)
  | number n => exact iff_of_true rfl (Nat.zero_le _)
  | text s => exact iff_of_true rfl (Nat.zero_le _)
  | list items ih =>
    intro room
    cases room with
    | zero =>
      refine iff_of_false (fun h => ?_) (Nat.not_succ_le_zero _)
      cases h
    | succ room =>
      rw [Json.toSource, check, Json.depth, Nat.succ_le_succ_iff, Json.depthItems_le_iff,
        Json.itemsToSource_eq_map]
      refine then_eq_ok_iff.trans ((and_iff_left rfl).trans ?_)
      rw [checkItems_eq_ok_iff, List.forall_mem_map]
      exact forall₂_congr fun x hx => ih x hx
  | map members ih =>
    intro room
    cases room with
    | zero =>
      refine iff_of_false (fun h => ?_) (Nat.not_succ_le_zero _)
      cases h
    | succ room =>
      rw [Json.toSource, check, Json.depth, Nat.succ_le_succ_iff, Json.depthMembers_le_iff]
      refine then_eq_ok_iff.trans ((and_iff_left rfl).trans ?_)
      rw [checkMembers_eq_ok_iff]
      exact forall₂_congr fun m hm => ih m hm

/-- A value can be passed over without room. -/
theorem ignore_toSource (v : Json) : v.toSource.ignore = .ok () := by
  induction v using Json.induction with
  | null => rfl
  | bool b => rfl
  | number n => rfl
  | text s => rfl
  | list items ih =>
    have hitems : ignoreItems (Json.itemsToSource items) = .ok () := by
      induction items with
      | nil => rfl
      | cons x rest ihrest =>
        obtain ⟨hx, hrest⟩ := List.forall_mem_cons.1 ih
        rw [Json.itemsToSource, ignoreItems, hx]
        exact ihrest hrest
    rw [Json.toSource, ignore, hitems]
    rfl
  | map members ih =>
    have hmembers : ignoreMembers (Json.membersToSource members) = .ok () := by
      induction members with
      | nil => rfl
      | cons m rest ihrest =>
        obtain ⟨hx, hrest⟩ := List.forall_mem_cons.1 ih
        rw [Json.membersToSource, ignoreMembers]
        show (m.2.toSource.ignore >>= fun _ => _) = _
        rw [hx]
        exact ihrest hrest
    rw [Json.toSource, ignore, hmembers]
    rfl

end Source

namespace Reading

/-- There is room to read a value to its end; reading what was stored takes none. -/
def HasRoom : Reading → Json → Prop
  | .direct room, v => v.depth ≤ room
  | .stored, _ => True

theorem hasRoom_stored (v : Json) : Reading.stored.HasRoom v := trivial

theorem readWhole_toSource_iff {way : Reading} {v : Json} :
    v.toSource.readWhole way = .ok () ↔ way.HasRoom v := by
  cases way with
  | direct room => exact Source.check_toSource_iff
  | stored => exact iff_of_true rfl trivial

/-- Where there is room for a list or map, it can be entered, and there is room for what is in it. -/
theorem HasRoom.enter {way : Reading} {v : Json} (h : way.HasRoom v) (hv : 0 < v.depth) :
    ∃ inner, way.enter = .ok inner ∧ ∀ x ∈ v.parts, inner.HasRoom x := by
  cases way with
  | stored => exact ⟨.stored, rfl, fun _ _ => trivial⟩
  | direct room =>
    cases room with
    | zero => exact absurd hv (Nat.not_lt.2 h)
    | succ room =>
      refine ⟨.direct room, rfl, ?_⟩
      cases v with
      | list items => exact Json.depthItems_le_iff.1 (Nat.le_of_succ_le_succ h)
      | map members =>
        exact List.forall_mem_map.2 (Json.depthMembers_le_iff.1 (Nat.le_of_succ_le_succ h))
      | _ => exact absurd hv (Nat.lt_irrefl 0)

/-- Having entered a value, one has room for what is in it. -/
theorem HasRoom.of_enter {way inner : Reading} {v : Json} (h : way.HasRoom v) (hv : 0 < v.depth)
    (henter : way.enter = .ok inner) : ∀ x ∈ v.parts, inner.HasRoom x := by
  obtain ⟨_, hentered, hin⟩ := h.enter hv
  obtain rfl := Except.ok.inj (henter.symm.trans hentered)
  exact hin

end Reading

end QueryShaping
