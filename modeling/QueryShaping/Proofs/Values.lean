import Mathlib.Data.List.Nodup
import QueryShaping.Source.Check

/-!
# Values and their normal form

A value that is carried along is put into normal form: in each of its maps the names ascend, and of
several members of one name the last stays. A value whose maps name no member twice loses nothing by
it but the order of its members.

## What this module delivers

- `Json.induction`: induction over values, with a hypothesis for each item and each member.
- `Json.toSource_inj`: different values have different trees.
- `Json.normal`, `Json.toJson_toSource`: the normal form, and that it is what the tree of a value
  stands for.
- `Json.Distinct`, `Json.ofMembers_perm`: values that name no member twice, and that normal form only
  reorders their members.
-/

set_option autoImplicit false

namespace QueryShaping

/-- What a name stands for in a list that begins with a pair. -/
theorem lookup_cons_eq {α β : Type} [DecidableEq α] [BEq α] [LawfulBEq α] (m : α × β)
    (rest : List (α × β)) (other : α) :
    (m :: rest).lookup other = if other = m.1 then some m.2 else rest.lookup other := by
  rw [List.lookup_cons]
  by_cases h : other = m.1
  · rw [if_pos h, beq_iff_eq.2 h]
  · rw [if_neg h, beq_false_of_ne h]

namespace Json

/-! ## Induction -/

/-- Induction over values, with the hypothesis for every item of a list and every member of a map. -/
@[elab_as_elim]
theorem induction {motive : Json → Prop} (null : motive .null) (bool : ∀ b, motive (.bool b))
    (number : ∀ n, motive (.number n)) (text : ∀ s, motive (.text s))
    (list : ∀ items, (∀ x ∈ items, motive x) → motive (.list items))
    (map : ∀ members, (∀ m ∈ members, motive m.2) → motive (.map members)) (v : Json) : motive v :=
  @Json.rec motive (fun items => ∀ x ∈ items, motive x) (fun members => ∀ m ∈ members, motive m.2)
    (fun m => motive m.2) null bool number text list map
    (fun _ h => nomatch h)
    (fun _ _ hx hrest => List.forall_mem_cons.2 ⟨hx, hrest⟩)
    (fun _ h => nomatch h)
    (fun _ _ hm hrest => List.forall_mem_cons.2 ⟨hm, hrest⟩)
    (fun _ _ hx => hx) v

/-! ## Trees of values -/

theorem itemsToSource_eq_map (items : List Json) : itemsToSource items = items.map toSource := by
  induction items with
  | nil => rfl
  | cons x rest ih => rw [itemsToSource, ih, List.map_cons]

theorem membersToSource_eq_map (members : List (String × Json)) :
    membersToSource members = members.map fun m => (.text m.1, m.2.toSource) := by
  induction members with
  | nil => rfl
  | cons m rest ih => rw [membersToSource, ih, List.map_cons]

theorem itemsToJson_eq_map (items : List Source) :
    Source.itemsToJson items = items.map Source.toJson := by
  induction items with
  | nil => rfl
  | cons x rest ih => rw [Source.itemsToJson, ih, List.map_cons]

theorem membersToJson_eq_map (members : List (Quoted × Source)) :
    Source.membersToJson members = members.map fun m => (m.1.text?.getD "", m.2.toJson) := by
  induction members with
  | nil => rfl
  | cons m rest ih => rw [Source.membersToJson, ih, List.map_cons]

mutual
/-- Different values have different trees. -/
theorem toSource_inj : ∀ v w : Json, v.toSource = w.toSource → v = w
  | .null, w, h => by
    cases w with
    | null => rfl
    | _ => cases h
  | .bool b, w, h => by
    cases w with
    | bool b' =>
      cases h
      rfl
    | _ => cases h
  | .number n, w, h => by
    cases w with
    | number n' =>
      cases h
      rfl
    | _ => cases h
  | .text s, w, h => by
    cases w with
    | text s' =>
      cases h
      rfl
    | _ => cases h
  | .list items, w, h => by
    cases w with
    | list items' => exact congrArg list (itemsToSource_inj items items' (Source.list.inj h).1)
    | _ => cases h
  | .map members, w, h => by
    cases w with
    | map members' =>
      exact congrArg map (membersToSource_inj members members' (Source.map.inj h).1)
    | _ => cases h
theorem itemsToSource_inj : ∀ xs ys : List Json, itemsToSource xs = itemsToSource ys → xs = ys
  | [], [], _ => rfl
  | [], _ :: _, h => nomatch h
  | _ :: _, [], h => nomatch h
  | x :: xs, y :: ys, h => by
    obtain ⟨hx, hxs⟩ := List.cons.inj h
    rw [toSource_inj x y hx, itemsToSource_inj xs ys hxs]
theorem membersToSource_inj : ∀ xs ys : List (String × Json),
    membersToSource xs = membersToSource ys → xs = ys
  | [], [], _ => rfl
  | [], _ :: _, h => nomatch h
  | _ :: _, [], h => nomatch h
  | (name, x) :: xs, (name', y) :: ys, h => by
    obtain ⟨hm, hxs⟩ := List.cons.inj h
    obtain ⟨hname, hx⟩ := Prod.mk.inj hm
    rw [Quoted.text.inj hname, toSource_inj x y hx, membersToSource_inj xs ys hxs]
end

/-! ## Normal form -/

mutual
/-- The normal form of a value. Uses auxiliary list forms so the nested recursion is structural. -/
def normal : Json → Json
  | .list items => .list (normalItems items)
  | .map members => .map (ofMembers (normalMembers members))
  | v => v
/-- The normal forms of the items of a list. -/
def normalItems : List Json → List Json
  | [] => []
  | x :: rest => normal x :: normalItems rest
/-- The members of a map with the normal forms of their values. -/
def normalMembers : List (String × Json) → List (String × Json)
  | [] => []
  | (name, x) :: rest => (name, normal x) :: normalMembers rest
end

theorem normalItems_eq_map (items : List Json) : normalItems items = items.map normal := by
  induction items with
  | nil => rfl
  | cons x rest ih => rw [normalItems, ih, List.map_cons]

theorem normalMembers_eq_map (members : List (String × Json)) :
    normalMembers members = members.map fun m => (m.1, m.2.normal) := by
  induction members with
  | nil => rfl
  | cons m rest ih => rw [normalMembers, ih, List.map_cons]

/-- The tree of a value stands for the normal form of the value. -/
theorem toJson_toSource (v : Json) : v.toSource.toJson = v.normal := by
  induction v using Json.induction with
  | null => rfl
  | bool b => rfl
  | number n => rfl
  | text s => rfl
  | list items ih =>
    -- both sides map the items, and agree on each of them
    rw [toSource, Source.toJson, normal, itemsToSource_eq_map, itemsToJson_eq_map,
      normalItems_eq_map, List.map_map]
    exact congrArg list (List.map_congr_left ih)
  | map members ih =>
    rw [toSource, Source.toJson, normal, membersToSource_eq_map, membersToJson_eq_map,
      normalMembers_eq_map, List.map_map]
    exact congrArg (fun ms => map (ofMembers ms))
      (List.map_congr_left fun m hm => congrArg (Prod.mk m.1) (ih m hm))

/-! ## Values that name no member twice -/

mutual
/-- No map of the value names a member twice, at any depth. -/
def Distinct : Json → Prop
  | .list items => DistinctItems items
  | .map members => (members.map (·.1)).Nodup ∧ DistinctMembers members
  | _ => True
/-- No map in the items names a member twice. -/
def DistinctItems : List Json → Prop
  | [] => True
  | x :: rest => Distinct x ∧ DistinctItems rest
/-- No map in the values of the members names a member twice. -/
def DistinctMembers : List (String × Json) → Prop
  | [] => True
  | (_, x) :: rest => Distinct x ∧ DistinctMembers rest
end

theorem distinct_list_iff (items : List Json) :
    (Json.list items).Distinct ↔ ∀ x ∈ items, x.Distinct := by
  rw [Distinct]
  induction items with
  | nil => simp [DistinctItems]
  | cons x rest ih => rw [DistinctItems, ih, List.forall_mem_cons]

theorem distinct_map_iff (members : List (String × Json)) :
    (Json.map members).Distinct ↔
      (members.map (·.1)).Nodup ∧ ∀ m ∈ members, m.2.Distinct := by
  rw [Distinct]
  refine and_congr_right' ?_
  induction members with
  | nil => simp [DistinctMembers]
  | cons m rest ih => rw [DistinctMembers, ih, List.forall_mem_cons]

/-- A member of a new name goes into a map at some place. -/
theorem insertMember_perm (name : String) (value : Json) (members : List (String × Json))
    (h : name ∉ members.map (·.1)) :
    (insertMember name value members).Perm ((name, value) :: members) := by
  induction members with
  | nil => exact List.Perm.refl _
  | cons m rest ih =>
    obtain ⟨other, kept⟩ := m
    simp only [List.map_cons, List.mem_cons, not_or] at h
    unfold insertMember
    split
    · exact List.Perm.refl _
    · -- the name is new, so no value is replaced
      rw [if_neg h.1]
      exact ((ih h.2).cons _).trans (List.Perm.swap _ _ _)

/-- Members of different names are put in order and nothing else. -/
theorem ofMembers_perm {members : List (String × Json)} (h : (members.map (·.1)).Nodup) :
    (ofMembers members).Perm members := by
  -- the members that are in the map already stand before those that are still to come
  have key : ∀ todo done : List (String × Json), ((done ++ todo).map (·.1)).Nodup →
      (todo.foldl (fun done m => insertMember m.1 m.2 done) done).Perm (done ++ todo) := by
    intro todo
    induction todo with
    | nil => exact fun done _ => by simp
    | cons m rest ih =>
      intro done hnodup
      have hnew : m.1 ∉ done.map (·.1) := by
        rw [List.map_append, List.map_cons] at hnodup
        exact fun hm => (List.disjoint_of_nodup_append hnodup) hm List.mem_cons_self
      have hperm : (insertMember m.1 m.2 done ++ rest).Perm (done ++ m :: rest) :=
        ((insertMember_perm m.1 m.2 done hnew).append_right rest).trans
          List.perm_middle.symm
      exact (ih _ ((hperm.map _).nodup_iff.2 hnodup)).trans hperm
  exact key members [] h

end Json

end QueryShaping
