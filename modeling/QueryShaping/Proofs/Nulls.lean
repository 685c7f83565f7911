import QueryShaping.Proofs.Rearranged

/-!
# Null and absent

A part of a request or of a statement that is null counts as one that is absent. What is read of a
document is therefore the same after nulls have been added for parts that were absent, wherever
these parts belong. One null is added at a time, and what the reader of a map makes of it is said
once: the fields that may be null are read as if they were missing, and those that hold the map with
the null are read as the same.

## What this module delivers

- `Source.Changes`, `Source.Altered`: what may be done to a map, and that it was done once.
- `Source.Blind`: a reader that does not see what was done.
- `Record.blind_read`, `Record.blind_readMap`: records, field by field.
- `Document.NullsAdded`: texts of documents of which one has nulls where the other has nothing.
- `Document.shapeText_nullsAdded`: they are shaped alike.
-/

set_option autoImplicit false

namespace QueryShaping

variable {α β : Type}

/-! ## Changes of a tree -/

namespace Source

/-- What may be done to a map: a null may be added under some names, and the value under a name may
be changed in some way. -/
structure Changes where
  nulls : List String
  inside : List (String × (Source → Source → Prop))

/-- A map was changed once. A null is added only under a name that the map does not have. -/
inductive Altered (c : Changes) : Source → Source → Prop where
  | added {before after : List (Quoted × Source)} {fin : MapEnd} {name : String} :
      name ∈ c.nulls → (∀ m ∈ before ++ after, m.1 ≠ .text name) →
      Altered c (.map (before ++ after) fin)
        (.map (before ++ (.text name, .atom .null) :: after) fin)
  | inside {before after : List (Quoted × Source)} {fin : MapEnd} {name : String}
      {R : Source → Source → Prop} {x y : Source} : (name, R) ∈ c.inside → R x y →
      Altered c (.map (before ++ (.text name, x) :: after) fin)
        (.map (before ++ (.text name, y) :: after) fin)

/-- One item of a list was changed. -/
inductive AlteredItem (R : Source → Source → Prop) : Source → Source → Prop where
  | intro {before after : List Source} {fin : ListEnd} {x y : Source} : R x y →
      AlteredItem R (.list (before ++ x :: after) fin) (.list (before ++ y :: after) fin)

variable {c : Changes} {R : Source → Source → Prop} {x y : Source}

theorem Altered.exists_map (h : Altered c x y) :
    ∃ ms ns fin, x = .map ms fin ∧ y = .map ns fin := by
  cases h with
  | added => exact ⟨_, _, _, rfl, rfl⟩
  | inside => exact ⟨_, _, _, rfl, rfl⟩

/-! ## Readers -/

/-- A reader takes two trees as the same. -/
def Blind (R : Source → Source → Prop) (read : Reading → Source → Except ReadError α) : Prop :=
  ∀ ⦃x y : Source⦄, R x y → ∀ way a, read way x = .ok a ↔ read way y = .ok a

variable {read : Reading → Source → Except ReadError α}

theorem blind_readList (h : Blind R read) : Blind (AlteredItem R) (readList read) := by
  rintro _ _ ⟨hxy⟩ way values
  rename_i before after fin x y
  have hitems (inner : Reading) : ∀ before values,
      List.Forall₂ (fun x a => read inner x = .ok a) (before ++ x :: after) values ↔
        List.Forall₂ (fun x a => read inner x = .ok a) (before ++ y :: after) values := by
    intro before
    induction before with
    | nil =>
      intro values
      rw [List.nil_append, List.nil_append, List.forall₂_cons_left_iff, List.forall₂_cons_left_iff]
      simp only [h hxy inner]
    | cons z before ih =>
      intro values
      rw [List.cons_append, List.cons_append, List.forall₂_cons_left_iff,
        List.forall₂_cons_left_iff]
      simp only [ih]
  rw [readList_eq_ok_iff, readList_eq_ok_iff]
  constructor
  · rintro ⟨_, inner, hlist, henter, hall⟩
    obtain ⟨rfl, rfl⟩ := Source.list.inj hlist
    exact ⟨_, inner, rfl, henter, (hitems inner before values).1 hall⟩
  · rintro ⟨_, inner, hlist, henter, hall⟩
    obtain ⟨rfl, rfl⟩ := Source.list.inj hlist
    exact ⟨_, inner, rfl, henter, (hitems inner before values).2 hall⟩

theorem blind_readListOrNull (h : Blind R read) :
    Blind (AlteredItem R) (readListOrNull read) := by
  rintro x y hxy way values
  have hnull : x ≠ .atom .null ∧ y ≠ .atom .null := by
    cases hxy
    exact ⟨nofun, nofun⟩
  rw [readListOrNull, readListOrNull, readOptional_of_ne_null hnull.1,
    readOptional_of_ne_null hnull.2]
  simp only [map_eq_ok_iff, blind_readList h hxy way]

end Source

/-! ## Fields -/

namespace Record

open Source

variable {c : Changes} {o : Outline} {f : Field} {ms ns : List (Quoted × Source)}

/-- The value that a map has in a field. -/
def value? (ms : List (Quoted × Source)) (f : Field) : Option Source :=
  ((byName ms).find? f).map (·.2)

/-- What may become of the value in a field. -/
inductive Met (c : Changes) (name : String) : Option Source → Option Source → Prop where
  | same {x : Option Source} : Met c name x x
  | added : name ∈ c.nulls → Met c name none (some (.atom .null))
  | inside {R : Source → Source → Prop} {x y : Source} : (name, R) ∈ c.inside → R x y →
      Met c name (some x) (some y)

/-- A reader of fields takes two maps as the same if their fields were changed only. -/
def Blind (c : Changes) (o : Outline) (get : Reading → Record → Placed α) : Prop :=
  ∀ ⦃ms ns : List (Quoted × Source)⦄, (∀ f ∈ o.fields, Met c f.name (value? ms f) (value? ns f)) →
    ∀ way a, get way (byName ms) = .ok a ↔ get way (byName ns) = .ok a

theorem exists_find?_iff {P : Source → Prop} :
    (∃ place x, (byName ms).find? f = some (place, x) ∧ P x) ↔ ∃ x, value? ms f = some x ∧ P x := by
  rw [value?]
  cases (byName ms).find? f with
  | none => simp
  | some found => simp [Prod.ext_iff]

theorem value?_eq_none_iff : value? ms f = none ↔ (byName ms).find? f = none :=
  Option.map_eq_none_iff

theorem Blind.map {get : Reading → Record → Placed α} (hget : Blind c o get) (g : α → β) :
    Blind c o fun way r => g <$> get way r := by
  intro ms ns h way b
  simp only [Placed.map_eq_ok_iff, hget h way]

theorem Blind.seq {get : Reading → Record → Placed (α → β)} {next : Reading → Record → Placed α}
    (hget : Blind c o get) (hnext : Blind c o next) :
    Blind c o fun way r => get way r <*> next way r := by
  intro ms ns h way b
  simp only [Placed.seq_eq_ok_iff, hget h way, hnext h way]

variable {read : Reading → Source → Except ReadError α}

/-- A field that has to be there, and to which no null is added. -/
theorem blind_required (hf : f ∈ o.fields) (hnull : f.name ∉ c.nulls)
    (hinside : ∀ R, (f.name, R) ∈ c.inside → Source.Blind R read) :
    Blind c o fun way r => r.required f (read way) := by
  intro ms ns h way a
  rw [required_eq_ok_iff, required_eq_ok_iff, exists_find?_iff, exists_find?_iff]
  have hmet := h f hf
  generalize value? ms f = x at hmet ⊢
  generalize value? ns f = y at hmet ⊢
  cases hmet with
  | same => exact Iff.rfl
  | added hname => exact absurd hname hnull
  | inside hR hxy => simp [hinside _ hR hxy way]

/-- A field that may be left out, and that is null as if it were. -/
theorem blind_withDefault (hf : f ∈ o.fields) {default : α}
    (hnull : f.name ∈ c.nulls → ∀ way, read way (.atom .null) = .ok default)
    (hinside : ∀ R, (f.name, R) ∈ c.inside → Source.Blind R read) :
    Blind c o fun way r => r.withDefault f default (read way) := by
  intro ms ns h way a
  rw [withDefault_eq_ok_iff, withDefault_eq_ok_iff, exists_find?_iff, exists_find?_iff,
    ← value?_eq_none_iff, ← value?_eq_none_iff]
  have hmet := h f hf
  generalize value? ms f = x at hmet ⊢
  generalize value? ns f = y at hmet ⊢
  cases hmet with
  | same => exact Iff.rfl
  | added hname => simp [hnull hname way]
  | inside hR hxy => simp [hinside _ hR hxy way]

/-! ## Maps -/

theorem value?_eq_find? : value? ms f = (ms.find? fun m => f.matchesName m.1).map (·.2) :=
  find?_byName ms f

theorem value?_append : value? (ms ++ ns) f = (value? ms f).or (value? ns f) := by
  simp only [value?_eq_find?, List.find?_append]
  cases ms.find? fun m => f.matchesName m.1 <;> rfl

theorem value?_cons (m : Quoted × Source) :
    value? (m :: ms) f = if f.matchesName m.1 then some m.2 else value? ms f := by
  simp only [value?_eq_find?, List.find?_cons]
  cases f.matchesName m.1 <;> rfl

/-- A field without other names is denoted by its name only. -/
theorem matchesName_iff (halias : f.aliases = []) {q : Quoted} :
    f.matchesName q = true ↔ q = .text f.name := by
  cases q with
  | text name =>
    rw [Field.matchesName, Quoted.text?, Field.goesBy_iff, halias]
    simp
  | _ => exact iff_of_false nofun nofun

theorem value?_eq_none_of_absent (halias : f.aliases = [])
    (habsent : ∀ m ∈ ms, m.1 ≠ .text f.name) : value? ms f = none := by
  rw [value?_eq_find?, List.find?_eq_none.2, Option.map_none]
  exact fun m hm hgoes => habsent m hm ((matchesName_iff halias).1 hgoes)

variable {fin : MapEnd}

/-- The fields of a map that was changed once were changed only. -/
theorem met_of_altered (halias : f.aliases = []) (h : Altered c (.map ms fin) (.map ns fin)) :
    Met c f.name (value? ms f) (value? ns f) := by
  cases h with
  | @added before after _ name hname habsent =>
    rw [value?_append, value?_append, value?_cons]
    by_cases hgoes : f.matchesName (.text name) = true
    · obtain rfl := Quoted.text.inj ((matchesName_iff halias).1 hgoes)
      obtain ⟨hbefore, hafter⟩ := List.forall_mem_append.1 habsent
      rw [value?_eq_none_of_absent halias hbefore, value?_eq_none_of_absent halias hafter,
        if_pos hgoes]
      exact .added hname
    · rw [if_neg hgoes]
      exact .same
  | @inside before after _ name R x y hR hxy =>
    rw [value?_append, value?_append, value?_cons, value?_cons]
    cases value? before f with
    | some z => exact .same
    | none =>
      by_cases hgoes : f.matchesName (.text name) = true
      · obtain rfl := Quoted.text.inj ((matchesName_iff halias).1 hgoes)
        rw [if_pos hgoes, if_pos hgoes]
        exact .inside hR hxy
      · rw [if_neg hgoes, if_neg hgoes]
        exact .same

/-- A member of a new name gives no field twice. -/
theorem fitsMembers_added (halias : ∀ f ∈ o.fields, f.aliases = []) {name : String} {x : Source}
    (habsent : ∀ m ∈ ms ++ ns, m.1 ≠ .text name) :
    FitsMembers o (ms ++ (.text name, x) :: ns) ↔ FitsMembers o (ms ++ ns) := by
  refine forall₂_congr fun f hf => ?_
  simp only [List.map_append, List.map_cons, List.countP_append, List.countP_cons]
  by_cases hgoes : f.matchesName (.text name) = true
  · obtain rfl := Quoted.text.inj ((matchesName_iff (halias f hf)).1 hgoes)
    have hzero {members : List (Quoted × Source)} (h : ∀ m ∈ members, m.1 ≠ .text f.name) :
        (members.map (·.1)).countP f.matchesName = 0 := by
      rw [List.countP_eq_zero, List.forall_mem_map]
      exact fun m hm hgoes => h m hm ((matchesName_iff (halias f hf)).1 hgoes)
    obtain ⟨hms, hns⟩ := List.forall_mem_append.1 habsent
    simp [hzero hms, hzero hns, hgoes]
  · simp [hgoes]

/-- What is not among the fields is read in a map exactly if it is after a change. It may change
only where nothing is read any more. -/
theorem readMembers_altered_iff (ho : o.Separate) (halias : ∀ f ∈ o.fields, f.aliases = [])
    {keep : Bool} {way : Reading}
    (hinside : (∀ p ∈ c.inside, o.find? (.text p.1) ≠ none) ∨ way = .stored)
    (h : Altered c (.map ms fin) (.map ns fin)) :
    readMembers keep o way fin 0 [] ms = .ok () ↔ readMembers keep o way fin 0 [] ns = .ok () := by
  rw [readMembers_eq_ok_iff ho, readMembers_eq_ok_iff ho]
  refine and_congr_right' ?_
  cases h with
  | @added before after _ name _ habsent =>
    have hother : readOther keep way (.atom .null) = .ok () := by
      cases way with
      | stored => rfl
      | direct room => cases keep <;> rfl
    rw [fitsMembers_added halias habsent]
    simp [hother, or_imp, forall_and]
  | @inside before after _ name R x y hR _ =>
    have hother : o.find? (.text name) = none →
        (readOther keep way x = .ok () ↔ readOther keep way y = .ok ()) := by
      rcases hinside with hfield | rfl
      · exact fun hnone => absurd hnone (hfield _ hR)
      · exact fun _ => Iff.rfl
    have hfits : FitsMembers o (before ++ (.text name, x) :: after) ↔
        FitsMembers o (before ++ (.text name, y) :: after) := by
      simp [FitsMembers]
    simp only [hfits, List.forall_mem_append, List.forall_mem_cons, imp_congr_right hother]

/-- What a map holds in no field is the same after a change of its fields. -/
theorem others_altered (hadded : ∀ name ∈ c.nulls, o.find? (.text name) ≠ none)
    (hinside : ∀ p ∈ c.inside, o.find? (.text p.1) ≠ none)
    (h : Altered c (.map ms fin) (.map ns fin)) : others o ms = others o ns := by
  have hskip {name : String} {x : Source} {members : List (Quoted × Source)}
      (hname : o.find? (.text name) ≠ none) :
      ((Quoted.text name, x) :: members).filter (fun m => (o.find? m.1).isNone)
        = members.filter fun m => (o.find? m.1).isNone :=
    List.filter_cons_of_neg (by simpa using hname)
  cases h with
  | added hname _ =>
    rw [others, others, List.filter_append, List.filter_append, hskip (hadded _ hname)]
  | inside hR _ =>
    rw [others, others, List.filter_append, List.filter_append, hskip (hinside _ hR),
      hskip (hinside _ hR)]

/-! ## Reading records -/

/-- A record is read from a map exactly if it is after a change. -/
theorem read_altered_iff (ho : o.Separate) (halias : ∀ f ∈ o.fields, f.aliases = [])
    {body : Reading → Record → Placed α} (hbody : Blind c o body) {way : Reading}
    (hinside : (∀ p ∈ c.inside, o.find? (.text p.1) ≠ none) ∨ way = .stored) {x y : Source}
    (h : Altered c x y) {a : α} :
    Record.read o body way x = .ok a ↔ Record.read o body way y = .ok a := by
  obtain ⟨ms, ns, fin, rfl, rfl⟩ := h.exists_map
  rw [Record.read, Record.read, bind_eq_ok_iff, bind_eq_ok_iff]
  refine exists_congr fun inner => and_congr_right fun henter => ?_
  have hinner : (∀ p ∈ c.inside, o.find? (.text p.1) ≠ none) ∨ inner = .stored := by
    refine hinside.imp_right ?_
    rintro rfl
    exact (Except.ok.inj henter).symm
  rw [frame_eq_ok_iff, frame_eq_ok_iff, readMembers_altered_iff ho halias hinner h]
  exact and_congr_right' (hbody (fun f hf => met_of_altered (halias f hf) h) inner a)

theorem blind_read (ho : o.Separate) (halias : ∀ f ∈ o.fields, f.aliases = [])
    {body : Reading → Record → Placed α} (hbody : Blind c o body)
    (hinside : ∀ p ∈ c.inside, o.find? (.text p.1) ≠ none) :
    Source.Blind (Altered c) (Record.read o body) :=
  fun _ _ h _ _ => read_altered_iff ho halias hbody (.inl hinside) h

/-- So is a record that is given what no field holds, if this is kept or makes no difference. -/
theorem blind_readMap (ho : o.Separate) (halias : ∀ f ∈ o.fields, f.aliases = [])
    {body : Reading → Record → List (String × Json) → Placed α}
    (hbody : ∀ extra, Blind c o fun way r => body way r extra)
    (hinside : ∀ p ∈ c.inside, o.find? (.text p.1) ≠ none)
    (hadded : (∀ name ∈ c.nulls, o.find? (.text name) ≠ none) ∨
      ∀ way r extra extra', body way r extra = body way r extra') :
    Source.Blind (Altered c) (readMap o body) := by
  intro x y h way a
  obtain ⟨ms, ns, fin, rfl, rfl⟩ := h.exists_map
  have hextra (inner : Reading) (r : Record) :
      body inner r (others o ms) = body inner r (others o ns) := by
    rcases hadded with hadded | hsame
    · rw [others_altered hadded hinside h]
    · exact hsame _ _ _ _
  rw [readMap, readMap, bind_eq_ok_iff, bind_eq_ok_iff]
  refine exists_congr fun inner => and_congr_right fun _ => ?_
  rw [frame_eq_ok_iff, frame_eq_ok_iff, readMembers_altered_iff ho halias (.inl hinside) h, hextra]
  exact and_congr_right' (hbody _ (fun f hf => met_of_altered (halias f hf) h) inner a)

end Record

/-! ## Statements -/

/-- Where nulls may be added to a table. -/
def Table.changes : Source.Changes := ⟨["db", "table", "as"], []⟩

theorem Table.blind_read : Source.Blind (Source.Altered changes) Table.read := by
  have htext {f : Field} (hf : f ∈ outline.fields) :
      Record.Blind changes outline fun _ r =>
        r.withDefault f none (Source.readOptional Source.readText) :=
    @Record.blind_withDefault _ _ _ _ (fun _ => Source.readOptional Source.readText) hf _
      (fun _ _ => rfl) (by simp [changes])
  refine Record.blind_readMap outline_separate (by decide) (fun extra => ?_) (by simp [changes])
    (.inl (by decide))
  have hdatabase := htext (f := databaseField) (by simp [outline, Outline.record])
  have hname := htext (f := nameField) (by simp [outline, Outline.record])
  have halias := htext (f := aliasField) (by simp [outline, Outline.record])
  exact ((hdatabase.map _).seq hname).seq halias

/-- Where a null may be added to a selected column. -/
def SelectItem.changes : Source.Changes := ⟨["as"], []⟩

theorem SelectItem.blind_read : Source.Blind (Source.Altered changes) SelectItem.read := by
  have hcolumn : Record.Blind changes outline fun way r =>
      r.required columnField (Column.read way) :=
    Record.blind_required (by simp [outline, Outline.record]) (by decide) (by simp [changes])
  have halias : Record.Blind changes outline fun _ r =>
      r.withDefault aliasField none (Source.readOptional Source.readText) :=
    @Record.blind_withDefault _ _ _ _ (fun _ => Source.readOptional Source.readText)
      (by simp [outline, Outline.record]) _ (fun _ _ => rfl) (by simp [changes])
  exact Record.blind_read outline_separate (by decide) ((hcolumn.map SelectItem.mk).seq halias)
    (by simp [changes])

namespace Statement

open Source

/-- Where nulls may be added to a statement: for its own parts, and for those of its selected
columns and of its tables. -/
def changes : Changes :=
  ⟨["distinct", "columns", "from", "where", "groupby", "orderby", "limit"],
    [("columns", AlteredItem (Altered SelectItem.changes)),
      ("from", AlteredItem (Altered Table.changes))]⟩

theorem blind_read : Blind (Altered changes) Statement.read := by
  have hmem {f : Field} (hf : f ∈ [kindField, distinctField, itemsField, tablesField,
    conditionField, groupsField, orderField, windowField]) : f ∈ outline.fields := hf
  -- a part that is null or absent, and inside which nothing changes
  have hpart {γ : Type} {f : Field} {default : γ} (read : Reading → Source → Except ReadError γ)
      (hf : f ∈ outline.fields) (hnull : ∀ way, read way (.atom .null) = .ok default)
      (hinside : f.name ≠ "columns" ∧ f.name ≠ "from") :
      Record.Blind changes outline fun way r => r.withDefault f default (read way) :=
    Record.blind_withDefault hf (fun _ => hnull) (by simp [changes, hinside])
  have hkind : Record.Blind changes outline fun way r => r.required kindField (readKind way) :=
    Record.blind_required (hmem (by simp)) (by decide) (by simp [changes, kindField, Field.named])
  have hdistinct := hpart readAny (hmem (f := distinctField) (by simp)) (fun way => by
    cases way <;> rfl) (by decide)
  have hitems : Record.Blind changes outline fun way r =>
      r.withDefault itemsField [] (readListOrNull SelectItem.read way) :=
    Record.blind_withDefault (hmem (by simp)) (fun _ _ => rfl) (by
      simpa [changes, itemsField, Field.named] using blind_readListOrNull SelectItem.blind_read)
  have htables : Record.Blind changes outline fun way r =>
      r.withDefault tablesField [] (readListOrNull Table.read way) :=
    Record.blind_withDefault (hmem (by simp)) (fun _ _ => rfl) (by
      simpa [changes, tablesField, Field.named] using blind_readListOrNull Table.blind_read)
  have hcondition := hpart (fun way => readOptional (Expr.read way))
    (hmem (f := conditionField) (by simp)) (fun _ => rfl) (by decide)
  have hgroups := hpart (fun way => readOptional (readList Expr.read way))
    (hmem (f := groupsField) (by simp)) (fun _ => rfl) (by decide)
  have horder := hpart (fun way => readOptional (readList OrderEntry.read way))
    (hmem (f := orderField) (by simp)) (fun _ => rfl) (by decide)
  have hwindow := hpart (fun way => readOptional (Window.read way))
    (hmem (f := windowField) (by simp)) (fun _ => rfl) (by decide)
  refine Record.blind_readMap outline_separate (by decide) (fun extra => ?_) (by decide)
    (.inl (by decide))
  exact (((((((hkind.map _).seq hdistinct).seq hitems).seq htables).seq hcondition).seq hgroups).seq
    horder).seq hwindow

end Statement

/-! ## Requests and documents -/

/-- The request of a document is read as the same if nulls were added for its parts, and whatever
became of the statement. -/
theorem Request.read_altered_iff {c : Source.Changes} (hinside : ∀ p ∈ c.inside, p.1 = "queryAST")
    {x y : Source} (h : Source.Altered c x y) {req : Request} :
    Request.read .stored x = .ok req ↔ Request.read .stored y = .ok req := by
  have hmem {f : Field} (hf : f ∈ [orderField, limitField, pageField, filterField, searchableField,
    searchField, limitPerField]) : f ∈ outline.fields := hf
  have hpart {γ : Type} {f : Field} {default : γ} (read : Reading → Source → Except ReadError γ)
      (hf : f ∈ outline.fields) (hnull : ∀ way, read way (.atom .null) = .ok default) :
      Record.Blind c outline fun way r => r.withDefault f default (read way) := by
    refine Record.blind_withDefault hf (fun _ => hnull) fun R hR => ?_
    -- the statement is no part of the request
    have hother : ∀ f ∈ outline.fields, f.name ≠ "queryAST" := by decide
    exact absurd (hinside _ hR) (hother f hf)
  have horder := hpart (Source.readListOrNull SortKey.read)
    (hmem (f := orderField) (by simp)) (fun _ => rfl)
  have hlimit := hpart (fun _ => Source.readOptional Positive.read)
    (hmem (f := limitField) (by simp)) (fun _ => rfl)
  have hpage := hpart (fun _ => Source.readOptional Positive.read)
    (hmem (f := pageField) (by simp)) (fun _ => rfl)
  have hfilter := hpart (Source.readListOrNull (Source.readList Condition.read))
    (hmem (f := filterField) (by simp)) (fun _ => rfl)
  have hsearchable := hpart (Source.readListOrNull fun _ => Source.readText)
    (hmem (f := searchableField) (by simp)) (fun _ => rfl)
  have hsearch := hpart (fun _ => Source.readOptional Source.readText)
    (hmem (f := searchField) (by simp)) (fun _ => rfl)
  have hlimitPer := hpart (fun way => Source.readOptional (Source.readAny way))
    (hmem (f := limitPerField) (by simp)) (fun _ => rfl)
  exact Record.read_altered_iff outline_separate (by decide)
    (((((((horder.map _).seq hlimit).seq hpage).seq hfilter).seq hsearchable).seq hsearch).seq
      hlimitPer) (.inr rfl) h

namespace Json

theorem membersToSource_append (before after : List (String × Json)) :
    membersToSource (before ++ after) = membersToSource before ++ membersToSource after := by
  rw [membersToSource_eq_map, List.map_append, ← membersToSource_eq_map, ← membersToSource_eq_map]

/-- A name that no member of a value has is that of no member of its tree. -/
theorem ne_of_mem_membersToSource {name : String} {members : List (String × Json)}
    (h : name ∉ members.map (·.1)) : ∀ m ∈ membersToSource members, m.1 ≠ .text name := by
  rw [membersToSource_eq_map, List.forall_mem_map]
  exact fun m hm heq => h (Quoted.text.inj heq ▸ List.mem_map_of_mem hm)

end Json

namespace Document

open Source

/-- Where nulls may be added to a document: for the parts of the request, and in the statement. -/
def changes : Changes :=
  ⟨["order", "limit", "page", "filter", "searchable", "search", "limitPer"],
    [("queryAST", Altered Statement.changes)]⟩

/-- A document is read as the same after a change. -/
theorem blind_read : Blind (Altered changes) Document.read := by
  intro x y h way d
  have hstatement : Record.Blind changes outline fun way r =>
      r.required statementField (Statement.read way) :=
    Record.blind_required (by simp [outline, Outline.record]) (by decide) (by
      simpa [changes, statementField, Field.named] using Statement.blind_read)
  have hmap := Record.blind_readMap outline_separate (by decide) (fun _ => hstatement) (by decide)
    (.inr fun _ _ _ _ => rfl)
  rw [Document.read, Document.read, bind_eq_ok_iff, bind_eq_ok_iff]
  have hrequest {req : Request} :
      Request.read .stored x = .ok req ↔ Request.read .stored y = .ok req :=
    Request.read_altered_iff (by simp [changes]) h
  simp only [hmap h way, bind_eq_ok_iff, hrequest]

/-- It is read as the same after any number of changes. -/
theorem read_changed_iff {x y : Source} (h : Relation.ReflTransGen (Altered changes) x y)
    {way : Reading} {d : Document} : read way x = .ok d ↔ read way y = .ok d := by
  induction h with
  | refl => exact Iff.rfl
  | tail _ hlast ih => exact ih.trans (blind_read hlast way d)

/-- Texts of documents of which the second has nulls where the first has nothing: for any parts of
the request, of the statement, of its tables and of its selected columns. -/
structure NullsAdded (s s' : String) : Prop where
  tree : Relation.ReflTransGen (Altered changes) (Source.ofChars s.toList).1
    (Source.ofChars s'.toList).1
  surplus : (Source.ofChars s.toList).2 = (Source.ofChars s'.toList).2

theorem NullsAdded.ofText_iff {s s' : String} (h : NullsAdded s s') {d : Document} :
    ofText s = .ok d ↔ ofText s' = .ok d := by
  rw [ofText_eq_ok_iff, ofText_eq_ok_iff, h.surplus, read_changed_iff h.tree]

theorem shapeText_of_unreadable {pretty : Bool} {s : String} {e : ReadError}
    (h : ofText s = .error (.unreadable e)) : shapeText pretty s = .error (.unreadable e) := by
  rw [shapeText, h]
  rfl

/-- Adding nulls for parts that were absent does not matter: neither of the documents can be read,
or both give the same text, or both are rejected for the same cause. -/
theorem shapeText_nullsAdded {s s' : String} (h : NullsAdded s s') (pretty : Bool) :
    (∃ e e', shapeText pretty s = .error (.unreadable e) ∧
        shapeText pretty s' = .error (.unreadable e')) ∨
      (∃ out, shapeText pretty s = .ok out ∧ shapeText pretty s' = .ok out) ∨
        ∃ cause, shapeText pretty s = .error (.rejected cause) ∧
          shapeText pretty s' = .error (.rejected cause) := by
  cases hd : ofText s with
  | ok d =>
    rw [shapeText_eq pretty hd, shapeText_eq pretty (h.ofText_iff.1 hd), shape]
    cases d.request.shape d.statement with
    | ok st => exact .inr (.inl ⟨_, rfl, rfl⟩)
    | error cause => exact .inr (.inr ⟨cause, rfl, rfl⟩)
  | error failure =>
    obtain ⟨e, rfl⟩ := exists_unreadable hd
    cases hd' : ofText s' with
    | ok d => cases hd.symm.trans (h.ofText_iff.2 hd')
    | error failure' =>
      obtain ⟨e', rfl⟩ := exists_unreadable hd'
      exact .inl ⟨e, e', shapeText_of_unreadable hd, shapeText_of_unreadable hd'⟩

section Values

variable {c : Changes} {members before after : List (String × Json)} {name : String}

/-- A null that is added to a value as its last member. -/
theorem altered_last (hname : name ∈ c.nulls) (habsent : name ∉ members.map (·.1)) :
    Altered c (Json.map members).toSource (Json.map (members ++ [(name, .null)])).toSource := by
  have hother : ∀ m ∈ Json.membersToSource members ++ [], m.1 ≠ .text name := by
    rw [List.append_nil]
    exact Json.ne_of_mem_membersToSource habsent
  have h := @Altered.added c _ [] .closed name hname hother
  rw [List.append_nil] at h
  rw [Json.toSource, Json.toSource, Json.membersToSource_append]
  exact h

/-- A member of a value that is changed inside. -/
theorem altered_member {R : Source → Source → Prop} {v w : Json} (hR : (name, R) ∈ c.inside)
    (h : R v.toSource w.toSource) :
    Altered c (Json.map (before ++ (name, v) :: after)).toSource
      (Json.map (before ++ (name, w) :: after)).toSource := by
  rw [Json.toSource, Json.toSource, Json.membersToSource_append, Json.membersToSource_append]
  exact .inside hR h

/-- The only item of a list that is changed inside. -/
theorem alteredItem_only {R : Source → Source → Prop} {v w : Json} (h : R v.toSource w.toSource) :
    AlteredItem R (Json.list [v]).toSource (Json.list [w]).toSource :=
  @AlteredItem.intro R [] [] .closed _ _ h

end Values

/-- A statement that selects a column from a table, with more members of the column, of the table
and of its own. -/
def selecting (item table statement : List (String × Json)) : Json :=
  .map ([("type", .text "select"),
    ("columns", .list [.map ([("expr", .map [("column", .text "a")])] ++ item)]),
    ("from", .list [.map ([("table", .text "t")] ++ table)])] ++ statement)

/-- A document with a search in a statement, and with more members. -/
def searching (v : Json) (request : List (String × Json)) : Json :=
  .map ([("searchable", .list [.text "a"]), ("search", .text "x"), ("queryAST", v)] ++ request)

/-- With a null in each of them it is shaped as it is without. -/
theorem shapeText_nullsAdded_searching :
    ∃ out, shapeText false (searching (selecting [] [] []) []).compact = .ok out ∧
      shapeText false (searching (selecting [("as", .null)] [("as", .null)] [("where", .null)])
        [("limitPer", .null)]).compact = .ok out := by
  have hin {v w : Json} (h : Altered Statement.changes v.toSource w.toSource) :
      Altered changes (searching v []).toSource (searching w []).toSource :=
    @altered_member _ [("searchable", _), ("search", _)] _ "queryAST" _ _ _ List.mem_cons_self h
  have hitem : Altered Statement.changes (selecting [] [] []).toSource
      (selecting [("as", .null)] [] []).toSource :=
    @altered_member _ [("type", _)] _ "columns" _ _ _ List.mem_cons_self
      (alteredItem_only (altered_last List.mem_cons_self (by decide)))
  have htable : Altered Statement.changes (selecting [("as", .null)] [] []).toSource
      (selecting [("as", .null)] [("as", .null)] []).toSource :=
    @altered_member _ [("type", _), ("columns", _)] _ "from" _ _ _
      (List.mem_cons_of_mem _ List.mem_cons_self)
      (alteredItem_only (altered_last (by decide) (by decide)))
  have hwhere : Altered Statement.changes (selecting [("as", .null)] [("as", .null)] []).toSource
      (selecting [("as", .null)] [("as", .null)] [("where", .null)]).toSource :=
    altered_last (by decide) (by decide)
  have hlimitPer {v : Json} :
      Altered changes (searching v []).toSource (searching v [("limitPer", .null)]).toSource :=
    altered_last (by decide) (by simp)
  let v := searching (selecting [] [] []) []
  let w := searching (selecting [("as", .null)] [("as", .null)] [("where", .null)])
    [("limitPer", .null)]
  have htree : Relation.ReflTransGen (Altered changes) v.toSource w.toSource :=
    (((Relation.ReflTransGen.single (hin hitem)).tail (hin htable)).tail (hin hwhere)).tail
      hlimitPer
  have hv : v.ReadsBack := by decide
  have hw : w.ReadsBack := by decide
  have hadded : NullsAdded v.compact w.compact := by
    refine ⟨?_, ?_⟩
    · rw [Source.ofChars_compact hv, Source.ofChars_compact hw]
      exact htree
    · rw [Source.ofChars_compact hv, Source.ofChars_compact hw]
  obtain ⟨d, hread, st, hst⟩ : ∃ d, read .whole v.toSource = .ok d ∧ ∃ st, d.shape = .ok st :=
    ⟨_, rfl, _, rfl⟩
  have hd : ofText v.compact = .ok d := ofText_of_ofChars (Source.ofChars_compact hv) hread
  have hshaped : shapeText false v.compact = .ok (text false st) := by
    rw [shapeText_eq false hd, hst]
    rfl
  rcases shapeText_nullsAdded hadded false with ⟨e, e', h, -⟩ | hboth | ⟨cause, h, -⟩
  · cases hshaped.symm.trans h
  · exact hboth
  · cases hshaped.symm.trans h

end Document

end QueryShaping
