import Mathlib.Logic.Relation
import QueryShaping.Proofs.Direct

/-!
# Trees whose members stand in another order

Two texts that differ in nothing but the order in which their maps list the members have trees that
lead to each other by steps, each of which exchanges two neighbouring members of one map, wherever
the map stands. The trees need not be well written: what a reader passes over may be faulty.

## What this module delivers

- `Source.Distinct`: trees that name no member twice.
- `Source.Swap`, `Source.Rearranged`: one exchange, and any number of them.
- `Source.near_list`, `Source.near_map`: what at most one exchange can do to a list and to a map.
- `Source.Near.check`, `Source.Near.ignore`, `Source.Near.reordered`: a tree that is read to its
  end, or passed over, is so after an exchange, and stands for the same value.
- `Json.Reordered.rearranged`: values that differ in the order of their members only have trees that
  lead to each other.
-/

set_option autoImplicit false

namespace QueryShaping

namespace Source

/-! ## Trees that name no member twice -/

mutual
/-- No map of the tree names a member twice, at any depth. Names that denote no text are not
compared. Uses auxiliary list forms so the nested recursion is structural. -/
def Distinct : Source → Prop
  | .list items _ => DistinctItems items
  | .map members _ => (members.filterMap (·.1.text?)).Nodup ∧ DistinctMembers members
  | _ => True
/-- No map in the items names a member twice. -/
def DistinctItems : List Source → Prop
  | [] => True
  | x :: rest => Distinct x ∧ DistinctItems rest
/-- No map in the values of the members names a member twice. -/
def DistinctMembers : List (Quoted × Source) → Prop
  | [] => True
  | (_, x) :: rest => Distinct x ∧ DistinctMembers rest
end

theorem distinct_list_iff {items : List Source} {fin : ListEnd} :
    (list items fin).Distinct ↔ ∀ x ∈ items, x.Distinct := by
  rw [Distinct]
  induction items with
  | nil => simp [DistinctItems]
  | cons x rest ih => rw [DistinctItems, ih, List.forall_mem_cons]

theorem distinct_map_iff {members : List (Quoted × Source)} {fin : MapEnd} :
    (map members fin).Distinct ↔
      (members.filterMap (·.1.text?)).Nodup ∧ ∀ m ∈ members, m.2.Distinct := by
  rw [Distinct]
  refine and_congr_right' ?_
  induction members with
  | nil => simp [DistinctMembers]
  | cons m rest ih => rw [DistinctMembers, ih, List.forall_mem_cons]

/-- The tree of a value names a member twice exactly if the value does. -/
theorem distinct_toSource_iff (v : Json) : v.toSource.Distinct ↔ v.Distinct := by
  induction v using Json.induction with
  | list items ih =>
    rw [Json.toSource, distinct_list_iff, Json.distinct_list_iff, Json.itemsToSource_eq_map,
      List.forall_mem_map]
    exact forall₂_congr ih
  | map members ih =>
    have hnames : ((members.map fun m => ((.text m.1, m.2.toSource) : Quoted × Source)).filterMap
        (·.1.text?)) = members.map (·.1) := by
      rw [List.filterMap_map]
      exact congrFun List.filterMap_eq_map members
    rw [Json.toSource, distinct_map_iff, Json.distinct_map_iff, Json.membersToSource_eq_map, hnames,
      List.forall_mem_map]
    exact and_congr_right' (forall₂_congr ih)
  | _ => exact Iff.rfl

/-! ## Exchanges -/

/-- Two neighbouring members of a map are exchanged, in the tree itself or in a part of it. -/
inductive Swap : Source → Source → Prop where
  | here (before : List (Quoted × Source)) (m n : Quoted × Source)
    (after : List (Quoted × Source)) (fin : MapEnd) :
    Swap (.map (before ++ m :: n :: after) fin) (.map (before ++ n :: m :: after) fin)
  | item (before after : List Source) (fin : ListEnd) {x y : Source} : Swap x y →
    Swap (.list (before ++ x :: after) fin) (.list (before ++ y :: after) fin)
  | member (before : List (Quoted × Source)) (name : Quoted) (after : List (Quoted × Source))
    (fin : MapEnd) {x y : Source} : Swap x y →
    Swap (.map (before ++ (name, x) :: after) fin) (.map (before ++ (name, y) :: after) fin)

/-- At most one exchange. -/
abbrev Near : Source → Source → Prop := Relation.ReflGen Swap

/-- Any number of exchanges: the trees differ in the order of members only. -/
abbrev Rearranged : Source → Source → Prop := Relation.ReflTransGen Swap

variable {src src' x y : Source}

/-- An exchange is undone by an exchange. -/
theorem Swap.symm (h : Swap src src') : Swap src' src := by
  induction h with
  | here before m n after fin => exact .here before n m after fin
  | item before after fin _ ih => exact .item before after fin ih
  | member before name after fin _ ih => exact .member before name after fin ih

theorem Rearranged.symm (h : Rearranged src src') : Rearranged src' src := by
  induction h with
  | refl => exact .refl
  | tail _ h ih => exact .head h.symm ih

theorem perm_here (before after : List (Quoted × Source)) (m n : Quoted × Source) :
    (before ++ m :: n :: after).Perm (before ++ n :: m :: after) :=
  (List.Perm.swap n m after).append_left before

/-- An exchange leaves the names as they are. -/
theorem Swap.distinct (h : Swap src src') : src.Distinct → src'.Distinct := by
  induction h with
  | here before m n after fin =>
    have hperm := perm_here before after m n
    rw [distinct_map_iff, distinct_map_iff]
    rintro ⟨hnames, hvalues⟩
    exact ⟨(hperm.filterMap _).nodup_iff.1 hnames, fun k hk => hvalues k (hperm.mem_iff.2 hk)⟩
  | item before after fin _ ih =>
    rw [distinct_list_iff, distinct_list_iff, List.forall_mem_append, List.forall_mem_append,
      List.forall_mem_cons, List.forall_mem_cons]
    rintro ⟨hbefore, hx, hafter⟩
    exact ⟨hbefore, ih hx, hafter⟩
  | member before name after fin _ ih =>
    rw [distinct_map_iff, distinct_map_iff, List.forall_mem_append, List.forall_mem_append,
      List.forall_mem_cons, List.forall_mem_cons]
    simp only [List.filterMap_append, List.filterMap_cons]
    rintro ⟨hnames, hbefore, hx, hafter⟩
    exact ⟨hnames, hbefore, ih hx, hafter⟩

theorem Rearranged.distinct (h : Rearranged src src') (hdistinct : src.Distinct) :
    src'.Distinct := by
  induction h with
  | refl => exact hdistinct
  | tail _ h ih => exact h.distinct ih

/-! ## What an exchange can do -/

/-- The members of two maps are the same up to their order, with related values. -/
def Matched (R : Source → Source → Prop) (ms ns : List (Quoted × Source)) : Prop :=
  ∃ mid, ms.Perm mid ∧ List.Forall₂ (fun m n => n.1 = m.1 ∧ R m.2 n.2) mid ns

theorem near_atom {a : Atom} (h : Near (.atom a) y) : y = .atom a := by
  cases h with
  | refl => rfl
  | single h => cases h

theorem near_list {items : List Source} {fin : ListEnd} (h : Near (.list items fin) y) :
    ∃ items', y = .list items' fin ∧ List.Forall₂ Near items items' := by
  have hsame (xs : List Source) : List.Forall₂ Near xs xs := List.forall₂_refl xs
  cases h with
  | refl => exact ⟨items, rfl, hsame items⟩
  | single h =>
    cases h with
    | item before after fin h =>
      exact ⟨_, rfl, List.rel_append (hsame before) (.cons (.single h) (hsame after))⟩

theorem near_map {members : List (Quoted × Source)} {fin : MapEnd} (h : Near (.map members fin) y) :
    ∃ members', y = .map members' fin ∧ Matched Near members members' := by
  have hsame (ms : List (Quoted × Source)) :
      List.Forall₂ (fun m n => n.1 = m.1 ∧ Near m.2 n.2) ms ms :=
    List.forall₂_same.2 fun m _ => ⟨rfl, .refl⟩
  cases h with
  | refl => exact ⟨members, rfl, members, .refl _, hsame members⟩
  | single h =>
    cases h with
    | here before m n after fin => exact ⟨_, rfl, _, perm_here before after m n, hsame _⟩
    | member before name after fin h =>
      exact ⟨_, rfl, _, .refl _,
        List.rel_append (hsame before) (.cons ⟨rfl, .single h⟩ (hsame after))⟩

namespace Matched

variable {R S : Source → Source → Prop} {ms ns : List (Quoted × Source)}

theorem names_perm (h : Matched R ms ns) : (ms.map (·.1)).Perm (ns.map (·.1)) := by
  obtain ⟨mid, hperm, hall⟩ := h
  have hnames : mid.map (·.1) = ns.map (·.1) := by
    rw [← List.forall₂_eq_eq_eq, List.forall₂_map_left_iff, List.forall₂_map_right_iff]
    exact hall.imp fun m n hmn => hmn.1.symm
  rw [← hnames]
  exact hperm.map _

/-- Each member is there before. -/
theorem exists_mem (h : Matched R ms ns) {n : Quoted × Source} (hn : n ∈ ns) :
    ∃ m ∈ ms, n.1 = m.1 ∧ R m.2 n.2 := by
  obtain ⟨mid, hperm, hall⟩ := h
  obtain ⟨m, hm, hmn⟩ := exists_of_mem_forall₂ hall hn
  exact ⟨m, hperm.mem_iff.2 hm, hmn⟩

/-- Each member is there after. -/
theorem exists_mem_after (h : Matched R ms ns) {m : Quoted × Source} (hm : m ∈ ms) :
    ∃ n ∈ ns, n.1 = m.1 ∧ R m.2 n.2 := by
  obtain ⟨mid, hperm, hall⟩ := h
  obtain ⟨n, hn, hmn⟩ := exists_of_mem_forall₂ hall.flip (hperm.mem_iff.1 hm)
  exact ⟨n, hn, hmn⟩

end Matched

/-! ## Reading to the end and passing over -/

theorem checkMembers_iff {room : Nat} {members : List (Quoted × Source)} :
    checkMembers room members = .ok () ↔
      ∀ m ∈ members, (∃ name, m.1 = .text name) ∧ m.2.check room = .ok () := by
  induction members with
  | nil => simp [checkMembers]
  | cons m rest ih =>
    rw [checkMembers, List.forall_mem_cons, ← ih, bind_eq_ok_iff]
    simp only [then_eq_ok_iff, Quoted.check_eq_ok_iff, exists_and_right, and_assoc]

theorem check_list_iff {room : Nat} {items : List Source} {fin : ListEnd} :
    (list items fin).check room = .ok () ↔
      ∃ inner, room = inner + 1 ∧ (∀ x ∈ items, x.check inner = .ok ()) ∧ fin = .closed := by
  cases room with
  | zero =>
    constructor
    · intro h
      cases h
    · rintro ⟨inner, hroom, -⟩
      cases hroom
  | succ room =>
    rw [check, then_eq_ok_iff, checkItems_eq_ok_iff, ListEnd.check_eq_ok_iff]
    simp

theorem check_map_iff {room : Nat} {members : List (Quoted × Source)} {fin : MapEnd} :
    (map members fin).check room = .ok () ↔
      ∃ inner, room = inner + 1 ∧
        (∀ m ∈ members, (∃ name, m.1 = .text name) ∧ m.2.check inner = .ok ()) ∧ fin = .closed := by
  cases room with
  | zero =>
    constructor
    · intro h
      cases h
    · rintro ⟨inner, hroom, -⟩
      cases hroom
  | succ room =>
    rw [check, then_eq_ok_iff, checkMembers_iff, MapEnd.check_eq_ok_iff]
    simp

theorem ignoreItems_iff {items : List Source} :
    ignoreItems items = .ok () ↔ ∀ x ∈ items, x.ignore = .ok () := by
  induction items with
  | nil => simp [ignoreItems]
  | cons x rest ih => rw [ignoreItems, then_eq_ok_iff, List.forall_mem_cons, ih]

theorem ignoreMembers_iff {members : List (Quoted × Source)} :
    ignoreMembers members = .ok () ↔ ∀ m ∈ members, m.1.ignore = .ok () ∧ m.2.ignore = .ok () := by
  induction members with
  | nil => simp [ignoreMembers]
  | cons m rest ih =>
    rw [ignoreMembers, then_eq_ok_iff, then_eq_ok_iff, List.forall_mem_cons, ih, and_assoc]

theorem Swap.check (h : Swap src src') :
    ∀ {room : Nat}, src.check room = .ok () → src'.check room = .ok () := by
  induction h with
  | here before m n after fin =>
    intro room hcheck
    obtain ⟨inner, rfl, hmembers, hfin⟩ := check_map_iff.1 hcheck
    exact check_map_iff.2 ⟨inner, rfl,
      fun k hk => hmembers k ((perm_here before after m n).mem_iff.2 hk), hfin⟩
  | item before after fin _ ih =>
    intro room hcheck
    obtain ⟨inner, rfl, hitems, hfin⟩ := check_list_iff.1 hcheck
    rw [List.forall_mem_append, List.forall_mem_cons] at hitems
    obtain ⟨hbefore, hx, hafter⟩ := hitems
    refine check_list_iff.2 ⟨inner, rfl, ?_, hfin⟩
    rw [List.forall_mem_append, List.forall_mem_cons]
    exact ⟨hbefore, ih hx, hafter⟩
  | member before name after fin _ ih =>
    intro room hcheck
    obtain ⟨inner, rfl, hmembers, hfin⟩ := check_map_iff.1 hcheck
    rw [List.forall_mem_append, List.forall_mem_cons] at hmembers
    obtain ⟨hbefore, ⟨hname, hx⟩, hafter⟩ := hmembers
    refine check_map_iff.2 ⟨inner, rfl, ?_, hfin⟩
    rw [List.forall_mem_append, List.forall_mem_cons]
    exact ⟨hbefore, ⟨hname, ih hx⟩, hafter⟩

theorem Swap.ignore (h : Swap src src') : src.ignore = .ok () → src'.ignore = .ok () := by
  induction h with
  | here before m n after fin =>
    rw [Source.ignore, Source.ignore, then_eq_ok_iff, then_eq_ok_iff, ignoreMembers_iff,
      ignoreMembers_iff]
    rintro ⟨hmembers, hfin⟩
    exact ⟨fun k hk => hmembers k ((perm_here before after m n).mem_iff.2 hk), hfin⟩
  | item before after fin _ ih =>
    rw [Source.ignore, Source.ignore, then_eq_ok_iff, then_eq_ok_iff, ignoreItems_iff,
      ignoreItems_iff, List.forall_mem_append, List.forall_mem_append, List.forall_mem_cons,
      List.forall_mem_cons]
    rintro ⟨⟨hbefore, hx, hafter⟩, hfin⟩
    exact ⟨⟨hbefore, ih hx, hafter⟩, hfin⟩
  | member before name after fin _ ih =>
    rw [Source.ignore, Source.ignore, then_eq_ok_iff, then_eq_ok_iff, ignoreMembers_iff,
      ignoreMembers_iff, List.forall_mem_append, List.forall_mem_append, List.forall_mem_cons,
      List.forall_mem_cons]
    rintro ⟨⟨hbefore, ⟨hname, hx⟩, hafter⟩, hfin⟩
    exact ⟨⟨hbefore, ⟨hname, ih hx⟩, hafter⟩, hfin⟩

theorem Near.check (h : Near src src') {room : Nat} (hcheck : src.check room = .ok ()) :
    src'.check room = .ok () := by
  cases h with
  | refl => exact hcheck
  | single h => exact h.check hcheck

theorem Near.ignore (h : Near src src') (hignore : src.ignore = .ok ()) : src'.ignore = .ok () := by
  cases h with
  | refl => exact hignore
  | single h => exact h.ignore hignore

theorem Near.distinct (h : Near src src') (hdistinct : src.Distinct) : src'.Distinct := by
  cases h with
  | refl => exact hdistinct
  | single h => exact h.distinct hdistinct

/-- Names that are texts are all compared. -/
theorem map_names_eq {members : List (Quoted × Source)}
    (h : ∀ m ∈ members, ∃ name, m.1 = .text name) :
    members.map (·.1.text?.getD "") = members.filterMap (·.1.text?) := by
  refine (List.filterMap_eq_map_iff_forall_eq_some.2 fun m hm => ?_).symm
  obtain ⟨name, hname⟩ := h m hm
  rw [hname]
  rfl

/-- What is read to its end stands for the same value after an exchange. -/
theorem Swap.toJson_eq (h : Swap src src') :
    ∀ {room : Nat}, src.Distinct → src.check room = .ok () → src.toJson = src'.toJson := by
  induction h with
  | here before m n after fin =>
    intro room hdistinct hcheck
    obtain ⟨inner, rfl, hmembers, -⟩ := check_map_iff.1 hcheck
    have hperm := perm_here before after m n
    rw [toJson, toJson, Json.membersToJson_eq_map, Json.membersToJson_eq_map]
    refine congrArg Json.map (Json.ofMembers_eq_of_perm ?_ (hperm.map _))
    rw [List.map_map]
    show ((before ++ m :: n :: after).map (·.1.text?.getD "")).Nodup
    -- all names are texts, and these are different
    rw [map_names_eq fun k hk => (hmembers k hk).1]
    exact (distinct_map_iff.1 hdistinct).1
  | item before after fin _ ih =>
    intro room hdistinct hcheck
    obtain ⟨inner, rfl, hitems, -⟩ := check_list_iff.1 hcheck
    have hx := ih (distinct_list_iff.1 hdistinct _ (by simp)) (hitems _ (by simp))
    rw [toJson, toJson, Json.itemsToJson_eq_map, Json.itemsToJson_eq_map, List.map_append,
      List.map_append, List.map_cons, List.map_cons, hx]
  | member before name after fin _ ih =>
    intro room hdistinct hcheck
    obtain ⟨inner, rfl, hmembers, -⟩ := check_map_iff.1 hcheck
    have hx := ih ((distinct_map_iff.1 hdistinct).2 (name, _) (by simp))
      (hmembers (name, _) (by simp)).2
    rw [toJson, toJson, Json.membersToJson_eq_map, Json.membersToJson_eq_map, List.map_append,
      List.map_append, List.map_cons, List.map_cons, hx]

theorem Near.toJson_eq (h : Near src src') (hdistinct : src.Distinct) {room : Nat}
    (hcheck : src.check room = .ok ()) : src.toJson = src'.toJson := by
  cases h with
  | refl => rfl
  | single h => exact h.toJson_eq hdistinct hcheck

/-- What is read to its end is the tree of a value, and an exchange makes it that of a reordered
one. -/
theorem Near.reordered (h : Near src src') (hdistinct : src.Distinct) {room : Nat}
    (hcheck : src.check room = .ok ()) :
    ∃ v w : Json, v.toSource = src ∧ w.toSource = src' ∧ v.Reordered w := by
  obtain ⟨v, rfl, -⟩ := exists_of_check hcheck
  obtain ⟨w, rfl, -⟩ := exists_of_check (h.check hcheck)
  have hnormal := h.toJson_eq hdistinct hcheck
  rw [Json.toJson_toSource, Json.toJson_toSource] at hnormal
  exact ⟨v, w, rfl, rfl, (distinct_toSource_iff v).1 hdistinct,
    (distinct_toSource_iff w).1 (h.distinct hdistinct), hnormal⟩

/-! ## Rearranged values -/

/-- The items of a list can be rearranged one by one. -/
theorem rearranged_list {xs ys : List Source} (fin : ListEnd) (h : List.Forall₂ Rearranged xs ys) :
    Rearranged (.list xs fin) (.list ys fin) := by
  have hitems : ∀ before, Rearranged (.list (before ++ xs) fin) (.list (before ++ ys) fin) := by
    induction h with
    | nil => exact fun before => .refl
    | @cons x y xs ys hxy _ ih =>
      intro before
      have hfirst : Rearranged (.list (before ++ x :: xs) fin) (.list (before ++ y :: xs) fin) :=
        hxy.lift (fun x => list (before ++ x :: xs) fin) fun _ _ h => .item before xs fin h
      have hrest := ih (before ++ [y])
      rw [List.append_assoc, List.append_assoc] at hrest
      exact hfirst.trans hrest
  exact hitems []

/-- So can the values of the members of a map. -/
theorem rearranged_values {ms ns : List (Quoted × Source)} (fin : MapEnd)
    (h : List.Forall₂ (fun m n => n.1 = m.1 ∧ Rearranged m.2 n.2) ms ns) :
    Rearranged (.map ms fin) (.map ns fin) := by
  have hmembers : ∀ before, Rearranged (.map (before ++ ms) fin) (.map (before ++ ns) fin) := by
    induction h with
    | nil => exact fun before => .refl
    | @cons m n ms ns hmn _ ih =>
      intro before
      obtain ⟨_, x⟩ := m
      obtain ⟨name, y⟩ := n
      obtain ⟨rfl, hxy⟩ := hmn
      have hfirst : Rearranged (.map (before ++ (name, x) :: ms) fin)
          (.map (before ++ (name, y) :: ms) fin) :=
        hxy.lift (fun x => map (before ++ (name, x) :: ms) fin)
          fun _ _ h => .member before name ms fin h
      have hrest := ih (before ++ [(name, y)])
      rw [List.append_assoc, List.append_assoc] at hrest
      exact hfirst.trans hrest
  exact hmembers []

/-- The members of a map can be put into any order. -/
theorem rearranged_perm {ms ns : List (Quoted × Source)} (fin : MapEnd) (h : ms.Perm ns) :
    Rearranged (.map ms fin) (.map ns fin) := by
  have hmembers : ∀ before, Rearranged (.map (before ++ ms) fin) (.map (before ++ ns) fin) := by
    induction h with
    | nil => exact fun before => .refl
    | cons m _ ih =>
      intro before
      have hrest := ih (before ++ [m])
      rwa [List.append_assoc, List.append_assoc] at hrest
    | swap m n rest => exact fun before => .single (.here before n m rest fin)
    | trans _ _ ih₁ ih₂ => exact fun before => (ih₁ before).trans (ih₂ before)
  exact hmembers []

end Source

namespace Json

/-- The tree of a value that names no member twice leads to that of its normal form. -/
theorem Distinct.rearranged_normal {v : Json} (h : v.Distinct) :
    Source.Rearranged v.toSource v.normal.toSource := by
  induction v using Json.induction with
  | list items ih =>
    rw [distinct_list_iff] at h
    rw [normal, toSource, toSource, itemsToSource_eq_map, itemsToSource_eq_map, normalItems_eq_map,
      List.map_map]
    apply Source.rearranged_list
    rw [List.forall₂_map_left_iff, List.forall₂_map_right_iff, List.forall₂_same]
    exact fun x hx => ih x hx (h x hx)
  | map members ih =>
    -- first the values, then the members
    have hvalues : Source.Rearranged (map members).toSource
        (map (members.map fun m => (m.1, m.2.normal))).toSource := by
      rw [toSource, toSource, membersToSource_eq_map, membersToSource_eq_map, List.map_map]
      apply Source.rearranged_values
      rw [List.forall₂_map_left_iff, List.forall₂_map_right_iff, List.forall₂_same]
      exact fun m hm => ⟨rfl, ih m hm (((distinct_map_iff members).1 h).2 m hm)⟩
    refine hvalues.trans ?_
    rw [normal, toSource, toSource, membersToSource_eq_map, membersToSource_eq_map]
    exact Source.rearranged_perm .closed (h.normal_map_perm.symm.map _)
  | _ => exact .refl

/-- Values that differ in the order of their members only have trees that lead to each other. -/
theorem Reordered.rearranged {v w : Json} (h : v.Reordered w) :
    Source.Rearranged v.toSource w.toSource := by
  have hv := h.left.rearranged_normal
  rw [h.normal] at hv
  exact hv.trans h.right.rearranged_normal.symm

end Json

end QueryShaping
