import Mathlib
import QueryShaping.Proofs.Direct
import QueryShaping.Proofs.Rendered

/-!
# Shaped statements that are given back

The text of a shaped statement may be put into a new document that asks for nothing. The new document
is refused if the condition is nested too deeply for it. Otherwise the statement is read back as it
was written, and so the new document gives the same text. This takes doubles that are read back from
their numerals, and conditions that named no member twice in the first document.

## What this module delivers

- `Source.check_toSource_eq_error`: a value is refused for nothing but its depth.
- `Statement.Tidy.read_toJson_direct`: a statement is read back from a text, unless its condition is too
  deep.
- `Document.holding`: the text of a document that holds a statement and asks for nothing.
- `Document.shapeText_holding`: what comes of the text of a shaped statement.
-/

set_option autoImplicit false

namespace QueryShaping

/-! ## Faults of values -/

namespace Source

theorem checkItems_eq_error {room : Nat} {items : List Source} {e : ReadError}
    (h : checkItems room items = .error e) : ∃ x ∈ items, x.check room = .error e := by
  induction items with
  | nil => cases h
  | cons x rest ih =>
    rw [checkItems] at h
    rcases bind_eq_error_iff.1 h with hx | ⟨_, -, hrest⟩
    · exact ⟨x, List.mem_cons_self, hx⟩
    · obtain ⟨y, hy, hcheck⟩ := ih hrest
      exact ⟨y, List.mem_cons_of_mem _ hy, hcheck⟩

theorem checkMembers_eq_error {room : Nat} {members : List (String × Json)} {e : ReadError}
    (h : checkMembers room (Json.membersToSource members) = .error e) :
    ∃ m ∈ members, m.2.toSource.check room = .error e := by
  induction members with
  | nil => cases h
  | cons m rest ih =>
    rw [Json.membersToSource, checkMembers] at h
    rcases bind_eq_error_iff.1 h with hname | ⟨_, -, h⟩
    · cases hname
    rcases bind_eq_error_iff.1 h with hm | ⟨_, -, hrest⟩
    · exact ⟨m, List.mem_cons_self, hm⟩
    · obtain ⟨n, hn, hcheck⟩ := ih hrest
      exact ⟨n, List.mem_cons_of_mem _ hn, hcheck⟩

/-- A value that cannot be read to its end is too deep. -/
theorem check_toSource_eq_error (v : Json) :
    ∀ {room : Nat} {e : ReadError}, v.toSource.check room = .error e → e = .malformed .tooDeep := by
  induction v using Json.induction with
  | list items ih =>
    intro room e h
    cases room with
    | zero => exact (Except.error.inj h).symm
    | succ room =>
      -- the list is closed, so one of its items has the fault
      rw [Json.toSource, check, Json.itemsToSource_eq_map] at h
      rcases bind_eq_error_iff.1 h with hitems | ⟨_, -, hfin⟩
      · obtain ⟨x, hx, hcheck⟩ := checkItems_eq_error hitems
        obtain ⟨v, hv, rfl⟩ := List.mem_map.1 hx
        exact ih v hv hcheck
      · cases hfin
  | map members ih =>
    intro room e h
    cases room with
    | zero => exact (Except.error.inj h).symm
    | succ room =>
      rw [Json.toSource, check] at h
      rcases bind_eq_error_iff.1 h with hmembers | ⟨_, -, hfin⟩
      · obtain ⟨m, hm, hcheck⟩ := checkMembers_eq_error hmembers
        exact ih m hm hcheck
      · cases hfin
  | _ =>
    intro room e h
    cases h

end Source

/-! ## Statements -/

namespace Statement

/-- A list is one level deeper than its items. -/
theorem depth_list_le {α : Type} {write : α → Json} {values : List α} {room : Nat}
    (h : ∀ a ∈ values, (write a).depth ≤ room) : (Json.list (values.map write)).depth ≤ room + 1 := by
  have hitems := Json.depthItems_le_iff.2 (List.forall_mem_map.2 h)
  exact Nat.succ_le_succ hitems

/-- Where there is room for the parts that may be deep, there is room for all parts of a statement but
its condition. -/
theorem Shallow.hasRoom {room : Nat} {st : Statement} (h : st.Shallow (room + 3)) :
    ∀ name x, (name, x) ∈ st.known ++ st.extra → name ≠ "where" →
      (Reading.direct (room + 3)).HasRoom x := by
  intro name x hm hname
  show x.depth ≤ room + 3
  rcases List.mem_append.1 hm with hm | hm
  · -- the parts in the order in which they are written
    simp only [known, List.mem_cons, List.not_mem_nil, or_false, Prod.mk.injEq] at hm
    rcases hm with ⟨-, rfl⟩ | ⟨-, rfl⟩ | ⟨-, rfl⟩ | ⟨-, rfl⟩ | ⟨hwhere, -⟩ | ⟨-, rfl⟩ | ⟨-, rfl⟩ |
      ⟨-, rfl⟩
    · exact Nat.zero_le _
    · exact h.distinct
    · apply depth_list_le
      intro item _
      rw [item.depth_toJson]
      exact Nat.le_add_left 2 room
    · apply depth_list_le
      intro t ht
      exact Nat.le_of_lt_succ (h.tables t ht)
    · exact absurd hwhere hname
    · cases hg : st.groups with
      | none => exact Nat.zero_le _
      | some es =>
        apply depth_list_le
        intro e he
        exact Nat.le_of_lt_succ (h.groups es hg e he)
    · cases st.order with
      | none => exact Nat.zero_le _
      | some entries =>
        apply depth_list_le
        intro entry _
        rw [entry.depth_toJson]
        exact Nat.le_add_left 2 room
    · cases st.window with
      | none => exact Nat.zero_le _
      | some w =>
        show w.toJson.depth ≤ room + 3
        rw [w.depth_toJson]
        exact Nat.le_add_left 2 (room + 1)
  · exact h.extra (name, x) hm

/-- From a text a tidy statement is read back, unless its condition is too deep. -/
theorem Tidy.read_toJson_direct {st : Statement} (h : st.Tidy) {room : Nat}
    (hs : st.Shallow (room + 3)) :
    Statement.read (.direct (room + 4)) st.toJson.toSource
      = if st.writtenCondition.depth ≤ room + 3 then .ok st.reread
        else .error (.malformed .tooDeep) := by
  have henter : (Reading.direct (room + 4)).enter = .ok (.direct (room + 3)) := rfl
  rw [h.read_toJson_of_room henter hs.hasRoom]
  show _ <$> st.writtenCondition.toSource.check (room + 3) = _
  split
  · next hdepth =>
    rw [Source.check_toSource_iff.2 hdepth]
    rfl
  · next hdepth =>
    cases hcheck : st.writtenCondition.toSource.check (room + 3) with
    | ok u => exact absurd (Source.check_toSource_iff.1 hcheck) hdepth
    | error e =>
      rw [Source.check_toSource_eq_error _ hcheck]
      rfl

end Statement

/-! ## Texts -/

namespace Document

/-- The written form of a statement in one of the styles. -/
theorem exists_style (pretty : Bool) : ∃ style : Json.Style, style.Spaced ∧
    ∀ st : Statement, (text pretty st).toList = st.toJson.render style 0 := by
  cases pretty with
  | false => exact ⟨.compact, Json.Style.spaced_compact, fun st => String.toList_ofList⟩
  | true => exact ⟨.pretty, Json.Style.spaced_pretty, fun st => String.toList_ofList⟩

/-- The text of a document that holds a statement and asks for nothing. Any gaps may stand between its
tokens. -/
def holding (gap : Nat → List Char) (statement : String) : String :=
  String.ofList (gap 0 ++ '\x7b' :: (gap 1 ++ (Quoted.encode "queryAST" ++ (gap 2 ++ ':' :: (gap 3 ++
    (statement.toList ++ (gap 4 ++ '\x7d' :: gap 5)))))))

/-- The document holds the value of the statement and nothing else. -/
theorem ofChars_holding {gap : Nat → List Char} (hgap : ∀ i, ∀ c ∈ gap i, Token.isBlank c = true)
    (pretty : Bool) {st : Statement} (hback : st.toJson.ReadsBack) :
    Source.ofChars (holding gap (text pretty st)).toList
      = ((Json.map [("queryAST", st.toJson)]).toSource, false) := by
  obtain ⟨style, hstyle, htext⟩ := exists_style pretty
  apply Source.ofChars_of_scan
  -- a number at the end of the statement does not run on into what follows it
  have hends : Numeral.Ends (gap 4 ++ '\x7d' :: gap 5) :=
    Json.ends_of_blanks (hgap 4) (Numeral.ends_cons (by decide) (gap 5))
  have hlast : Token.scan (gap 5) = [] := by
    rw [← List.append_nil (gap 5), Token.scan_blanks (hgap 5), Token.scan_nil]
  rw [holding, String.toList_ofList, htext, Token.scan_blanks (hgap 0),
    Token.scan_punctuation rfl (by decide), Token.scan_blanks (hgap 1), Token.scan_quoted,
    Token.scan_blanks (hgap 2), Token.scan_punctuation rfl (by decide), Token.scan_blanks (hgap 3),
    Json.scan_render hstyle _ _ _ hback hends, Token.scan_blanks (hgap 4),
    Token.scan_punctuation rfl (by decide), hlast]
  simp [Json.tokens, Json.memberTokens]

/-- A document is read as its statement is, if what else it holds is a request. -/
theorem read_whole {v : Json} {rest : List (String × Json)} {req : Request}
    (hframe : Record.readMembers true outline (.direct 126) .closed 0 []
      (Json.membersToSource (("queryAST", v) :: rest)) = .ok ())
    (hrequest : Request.read .stored (Json.map (("queryAST", v) :: rest)).toSource = .ok req) :
    Document.read .whole (Json.map (("queryAST", v) :: rest)).toSource
      = (fun st => ⟨req, st⟩) <$> Statement.read (.direct 126) v.toSource := by
  have hstatement : Record.readMap outline (fun way r _ =>
      r.required statementField (Statement.read way)) .whole
      (Json.map (("queryAST", v) :: rest)).toSource = Statement.read (.direct 126) v.toSource := by
    have henter : Reading.whole.enter = .ok (.direct 126) := rfl
    refine (Record.readMap_of_frame henter hframe).trans ?_
    show (Placed.ofExcept 0 (Statement.read (.direct 126) v.toSource)).toExcept = _
    cases Statement.read (.direct 126) v.toSource <;> rfl
  rw [Document.read, hstatement, hrequest]
  cases Statement.read (.direct 126) v.toSource <;> rfl

/-- What comes of a tidy statement that is put into a document. -/
theorem shapeText_holding_text {gap : Nat → List Char}
    (hgap : ∀ i, ∀ c ∈ gap i, Token.isBlank c = true) {pretty : Bool} {st : Statement} (h : st.Tidy)
    (hs : st.Shallow 125) (hback : st.toJson.ReadsBack) :
    shapeText pretty (holding gap (text pretty st))
      = if st.writtenCondition.depth ≤ 125 then .ok (text pretty st.reread)
        else .error (.unreadable (.malformed .tooDeep)) := by
  have hread : Statement.read (.direct 126) st.toJson.toSource
      = if st.writtenCondition.depth ≤ 125 then .ok st.reread else .error (.malformed .tooDeep) :=
    h.read_toJson_direct hs
  -- the document asks for nothing
  have hdocument : Document.read .whole (Json.map [("queryAST", st.toJson)]).toSource
      = (fun st => ⟨Request.empty, st⟩) <$> Statement.read (.direct 126) st.toJson.toSource :=
    read_whole rfl rfl
  rw [shapeText, ofText, readString, readChars, ofChars_holding hgap pretty hback]
  simp only [hdocument, hread]
  by_cases hdepth : st.writtenCondition.depth ≤ 125
  · rw [if_pos hdepth, if_pos hdepth]
    rfl
  · rw [if_neg hdepth, if_neg hdepth]
    rfl

/-- A part of the statement in the text of a document, as it is written. -/
def partOf? (f : Field) (s : String) : Option Source :=
  ((Source.ofChars s.toList).1.member? statementField).bind (·.member? f)

/-- No map in the condition and the groups of the statement in the text of a document names a member
twice. -/
def NamesOnce (s : String) : Prop :=
  ∀ f ∈ [Statement.conditionField, Statement.groupsField], ∀ v : Json,
    partOf? f s = some v.toSource → v.Distinct

/-- Then the statement is settled. -/
theorem settled_of_namesOnce {s : String} {d : Document} (h : ofText s = .ok d) (hs : NamesOnce s) :
    d.statement.Settled := by
  obtain ⟨src, hsrc, hread⟩ := statement_of_ofText h
  have hpart {f : Field} {x : Source} (hx : src.member? f = some x) : partOf? f s = some x := by
    rw [partOf?, hsrc]
    exact hx
  have htidy := Statement.tidy_of_read hread
  refine ⟨htidy.distinct, htidy.tables, fun e he => ⟨?_, (htidy.condition e he).2⟩,
    fun es hes e he => ?_, htidy.extra⟩
  · obtain ⟨v, hv, -, -, hreads⟩ := Statement.exists_condition_of_read hread he
    exact hreads.settled (hs _ (by simp) v (hpart hv))
  · obtain ⟨vs, hvs, hall⟩ := Statement.exists_groups_of_read hread hes
    obtain ⟨v, hv, -, hreads⟩ := exists_of_mem_forall₂ hall he
    have hlist := hs _ (by simp) _ (hpart hvs)
    exact hreads.settled ((Json.distinct_list_iff vs).1 hlist v hv)

/-- The text of a shaped statement is put into a new document, and the doubles in it are read back as
they were printed. If the condition is written with more than 125 levels the new document is refused,
for its depth alone. Otherwise it is accepted and gives the same text, provided that the conditions of
the first document name no member twice. -/
theorem shapeText_holding {pretty : Bool} {s out : String} (h : shapeText pretty s = .ok out) :
    ∃ d st, ofText s = .ok d ∧ d.shape = .ok st ∧ out = text pretty st ∧
      (st.toJson.ReadsBack →
        ∀ gap : Nat → List Char, (∀ i, ∀ c ∈ gap i, Token.isBlank c = true) →
          (125 < st.writtenCondition.depth →
            shapeText pretty (holding gap out) = .error (.unreadable (.malformed .tooDeep))) ∧
          (st.writtenCondition.depth ≤ 125 → NamesOnce s →
            shapeText pretty (holding gap out) = .ok out)) := by
  obtain ⟨d, p, hd, hp, rfl⟩ := shapeText_eq_ok_iff.1 h
  obtain ⟨src, -, hread⟩ := statement_of_ofText hd
  have htidy := (Statement.tidy_of_read hread).apply hp
  have hshallow := (Statement.shallow_of_read hread).apply p
  have hshape : d.shape = .ok (p.apply d.statement) := shape_eq_ok_iff.2 ⟨p, hp, rfl⟩
  refine ⟨d, p.apply d.statement, hd, hshape, rfl, fun hback gap hgap => ?_⟩
  have hagain := @shapeText_holding_text gap hgap pretty _ htidy hshallow hback
  refine ⟨fun hdeep => ?_, fun hdepth honce => ?_⟩
  · rw [hagain, if_neg (Nat.not_le.2 hdeep)]
  · -- the request joins plain conditions to settled ones, so what is read back is what was written
    have hsettled := (settled_of_namesOnce hd honce).apply hp
    rw [hagain, if_pos hdepth, hsettled.reread_eq]

/-- A filter for rows without a value in a column. -/
def absentColumn : Json :=
  .list [.list [.map [("attribute", .text "a"), ("operator", .text "equal"), ("value", .null)]]]

/-- The request of a document with the filter, and the test that it brings. -/
def absentRequest : Request :=
  { Request.empty with filter := [[⟨.single "a", .equal, .scalar .null⟩]] }

def absentTest : Expr := .compare .is (.column ⟨none, "a"⟩) (.literal .null)

/-- The double `0.1`, which is read back from its numeral. -/
def tenth : Double := ⟨false, 4591870180066957722, by decide⟩

theorem readsBack_tenth : tenth.ReadsBack := Double.readsBack_of_short (by decide +kernel)

/-- A call with it, a statement with the call as its condition, and a document that filters the
statement. -/
def call : Json :=
  .map [("args", .list [.number (.double tenth)]), ("name", .text "f"), ("type", .text "function")]

def callStatement : Statement := { Statement.empty with condition := some (.foreign call) }

def filteredCall : Json := .map [("queryAST", callStatement.toJson), ("filter", absentColumn)]

/-- The text of the filtered statement comes back as it is. -/
theorem shapeText_holding_filteredCall :
    ∃ out, shapeText true filteredCall.pretty = .ok out ∧
      shapeText true (holding (fun _ => [' ', '\n']) out) = .ok out := by
  have htenth : ∀ x ∈ [tenth], x.ReadsBack := by simpa using readsBack_tenth
  have hsource := @Source.ofChars_pretty filteredCall htenth
  have hread : ofText filteredCall.pretty = .ok ⟨absentRequest, callStatement⟩ :=
    ofText_of_ofChars hsource rfl
  have hshaped : shapeText true filteredCall.pretty = .ok (text true { callStatement with
      condition := some ((Expr.foreign call).and absentTest) }) :=
    shapeText_eq_ok_iff.2 ⟨_, _, hread, rfl, rfl⟩
  -- the condition of the document names no member twice, and it is not grouped
  have hcondition (v : Json) (hv : partOf? Statement.conditionField filteredCall.pretty
      = some v.toSource) : v.Distinct := by
    rw [partOf?, hsource] at hv
    obtain rfl := Json.toSource_inj call v (Option.some.inj hv)
    simp [call, Json.Distinct, Json.DistinctMembers, Json.DistinctItems]
  have hgroups (v : Json) (hv : partOf? Statement.groupsField filteredCall.pretty
      = some v.toSource) : v.Distinct := by
    rw [partOf?, hsource] at hv
    obtain rfl := Json.toSource_inj .null v (Option.some.inj hv)
    trivial
  have honce : NamesOnce filteredCall.pretty := by
    intro f hf
    simp only [List.mem_cons, List.not_mem_nil, or_false] at hf
    rcases hf with rfl | rfl
    · exact hcondition
    · exact hgroups
  have hgap : ∀ i : Nat, ∀ c ∈ (fun _ => [' ', '\n'] : Nat → List Char) i, Token.isBlank c = true := by
    simp [Token.isBlank]
  obtain ⟨d, st, hd, hst, -, hback⟩ := shapeText_holding hshaped
  obtain rfl := Except.ok.inj (hread.symm.trans hd)
  obtain rfl := Except.ok.inj hst
  exact ⟨_, hshaped, (hback htenth _ hgap).2 (by decide) honce⟩

/-- A column joined with itself so many times. -/
def joinedColumn : Nat → Expr
  | 0 => .column ⟨none, "a"⟩
  | n + 1 => (joinedColumn n).and (.column ⟨none, "a"⟩)

theorem plain_joinedColumn (n : Nat) : (joinedColumn n).Plain := by
  induction n with
  | zero => trivial
  | succ n ih => exact ⟨ih, trivial⟩

theorem depth_joinedColumn (n : Nat) : (joinedColumn n).toJson.depth = n + 1 := by
  induction n with
  | zero => exact Column.depth_toJson _
  | succ n ih =>
    refine (Expr.depth_toJson_binary _ _ _ _).trans ?_
    rw [ih]
    show max (n + 1) (Column.mk none "a").toJson.depth + 1 = _
    rw [Column.depth_toJson]
    omega

/-- A statement with nothing but a condition. -/
def ofCondition (e : Expr) : Statement := { Statement.empty with condition := some e }

theorem tidy_ofCondition {e : Expr} (h : e.Tidy) (hnull : e.toJson ≠ .null) : (ofCondition e).Tidy := by
  have hspares : Statement.outline.Spares [] := ⟨.nil, by simp, by simp⟩
  refine ⟨rfl, fun t ht => ?_, fun e' he => ?_, fun es hes => ?_, hspares⟩
  · cases ht
  · obtain rfl := Option.some.inj he
    exact ⟨h, hnull⟩
  · cases hes

theorem shallow_ofCondition (e : Expr) (room : Nat) : (ofCondition e).Shallow room := by
  refine ⟨Nat.zero_le room, fun t ht => ?_, fun es hes => ?_, fun m hm => ?_⟩
  · cases ht
  · cases hes
  · cases hm

/-- A statement with a condition of 125 levels, and a document that adds a filter to it. -/
def deepStatement : Statement := ofCondition (joinedColumn 124)

def deepDocument : Json := .map [("queryAST", deepStatement.toJson), ("filter", absentColumn)]

theorem noGap : ∀ i : Nat, ∀ c ∈ (fun _ => [] : Nat → List Char) i, Token.isBlank c = true := by
  simp

theorem ofText_deepDocument : ofText deepDocument.compact = .ok ⟨absentRequest, deepStatement⟩ := by
  have hplain := plain_joinedColumn 124
  have htidy := tidy_ofCondition hplain.settled.tidy hplain.toJson_ne_null
  have hdepth : (joinedColumn 124).toJson.depth ≤ 125 := Nat.le_of_eq (depth_joinedColumn 124)
  have hstatement : Statement.read (.direct 126) deepStatement.toJson.toSource
      = .ok deepStatement := by
    refine (htidy.read_toJson_direct (shallow_ofCondition _ 125)).trans ?_
    refine (if_pos hdepth).trans ?_
    show Except.ok (ofCondition (joinedColumn 124).reread) = _
    rw [hplain.settled.reread_eq]
    rfl
  refine ofText_of_ofChars (Source.ofChars_compact (by decide +kernel)) ?_
  refine (read_whole rfl rfl).trans ?_
  rw [hstatement]
  rfl

/-- A filter can take the condition of an accepted document past the depth that can be read. -/
theorem shapeText_deepDocument : ∃ out, shapeText false deepDocument.compact = .ok out ∧
    shapeText false (holding (fun _ => []) out) = .error (.unreadable (.malformed .tooDeep)) := by
  have hshaped : shapeText false deepDocument.compact
      = .ok (text false (ofCondition ((joinedColumn 124).and absentTest))) :=
    shapeText_eq_ok_iff.2 ⟨_, _, ofText_deepDocument, rfl, rfl⟩
  have htidy : ((joinedColumn 124).and absentTest).Tidy :=
    ⟨(plain_joinedColumn 124).settled.tidy, trivial, trivial⟩
  -- the filter puts one more level on top
  have hdepth : ¬ ((joinedColumn 124).and absentTest).toJson.depth ≤ 125 := by
    rw [Expr.and, Expr.compare, Expr.depth_toJson_binary, depth_joinedColumn]
    omega
  refine ⟨_, hshaped, ?_⟩
  have hnull : ((joinedColumn 124).and absentTest).toJson ≠ .null := by
    intro hnull
    cases hnull
  refine (shapeText_holding_text noGap (tidy_ofCondition htidy hnull)
    (shallow_ofCondition _ 125) (by decide +kernel)).trans ?_
  exact if_neg hdepth

end Document

end QueryShaping
