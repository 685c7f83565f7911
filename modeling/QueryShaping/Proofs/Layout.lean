import QueryShaping.Proofs.Returned

/-!
# Two layouts of one value

A value is written on one line or over several lines. The two texts differ in blanks between tokens
only. To say so, a text is passed through from left to right by a machine that knows whether it is
inside a quoted text, and that leaves out the blanks outside.

## What this module delivers

- `Squeeze.Place`, `Squeeze.run`: the machine, and what it leaves of a text.
- `Squeeze.Leaves`: what is left of a part of a text, whatever follows; `Leaves.append` puts parts
  together.
- `Squeeze.leaves_encode`: quoted texts stay as they are.
- `Json.squeeze_pretty`: the text over several lines without its blanks is the text on one line.
- `Document.shapeText_layouts`: the two texts of a shaped statement.
-/

set_option autoImplicit false

namespace QueryShaping

open Token (isBlank)

/-! ## Leaving out blanks -/

namespace Squeeze

/-- Where a character of a text stands. -/
inductive Place where
  | outside
  | inside
  /-- Inside a quoted text, after a backslash. -/
  | escaped
  deriving DecidableEq

/-- Where the next character stands. -/
def Place.after : Place → Char → Place
  | .outside, c => if c = '"' then .inside else .outside
  | .inside, c => if c = '"' then .outside else if c = '\\' then .escaped else .inside
  | .escaped, _ => .inside

/-- What is left of a text from a place on without the blanks outside of quoted texts. -/
def run : Place → List Char → List Char
  | _, [] => []
  | place, c :: cs =>
    if place = .outside ∧ isBlank c = true then run (place.after c) cs
    else c :: run (place.after c) cs

/-- A text without the blanks outside of its quoted texts. -/
def squeeze (s : String) : String := String.ofList (run .outside s.toList)

/-- The second part is left of the first, and both end outside of quoted texts. -/
def Leaves (cs left : List Char) : Prop :=
  ∀ rest, run .outside (cs ++ rest) = left ++ run .outside rest

theorem leaves_nil : Leaves [] [] := fun _ => rfl

theorem Leaves.append {cs ds left more : List Char} (h : Leaves cs left) (h' : Leaves ds more) :
    Leaves (cs ++ ds) (left ++ more) := by
  intro rest
  rw [List.append_assoc, h, h', List.append_assoc]

theorem leaves_blanks {blanks : List Char} (h : ∀ c ∈ blanks, isBlank c = true) :
    Leaves blanks [] := by
  induction blanks with
  | nil => exact leaves_nil
  | cons b blanks ih =>
    obtain ⟨hb, hblanks⟩ := List.forall_mem_cons.1 h
    have hquote : b ≠ '"' := by
      rintro rfl
      cases hb
    intro rest
    rw [List.cons_append, run, if_pos ⟨rfl, hb⟩, Place.after, if_neg hquote]
    exact ih hblanks rest

/-- Neither blanks nor quotes: what stands for itself outside of quoted texts. -/
def Solid (cs : List Char) : Prop := ∀ c ∈ cs, isBlank c = false ∧ c ≠ '"'

theorem leaves_solid {cs : List Char} (h : Solid cs) : Leaves cs cs := by
  induction cs with
  | nil => exact leaves_nil
  | cons c cs ih =>
    obtain ⟨⟨hblank, hquote⟩, hcs⟩ := List.forall_mem_cons.1 h
    intro rest
    rw [List.cons_append, run, if_neg (by simp [hblank]), Place.after, if_neg hquote, ih hcs rest,
      List.cons_append]

/-! ## Quoted texts -/

theorem run_inside {c : Char} (hquote : c ≠ '"') (hbackslash : c ≠ '\\') (cs : List Char) :
    run .inside (c :: cs) = c :: run .inside cs := by
  rw [run, if_neg (by simp), Place.after, if_neg hquote, if_neg hbackslash]

/-- After a backslash one character is passed over, whatever it is. -/
theorem run_escape (c : Char) (cs : List Char) :
    run .inside ('\\' :: c :: cs) = '\\' :: c :: run .inside cs := by
  rw [run, if_neg (by simp), Place.after, if_neg (by decide), if_pos rfl, run, if_neg (by simp)]
  rfl

/-- No hexadecimal digit is a quote or a backslash. -/
theorem digitChar_ne : ∀ n < 16, Nat.digitChar n ≠ '"' ∧ Nat.digitChar n ≠ '\\' := by
  decide

/-- The written form of a character stays inside the quoted text. -/
theorem run_encodeChar (c : Char) (cs : List Char) :
    run .inside (Quoted.encodeChar c ++ cs) = Quoted.encodeChar c ++ run .inside cs := by
  rw [Quoted.encodeChar]
  split
  · exact run_escape c cs
  next hspecial =>
  obtain ⟨hquote, hbackslash⟩ := not_or.1 hspecial
  split
  · exact run_inside hquote hbackslash cs
  next hcontrol =>
  -- five control characters have short forms
  split
  · exact run_escape 'b' cs
  split
  · exact run_escape 'f' cs
  split
  · exact run_escape 'n' cs
  split
  · exact run_escape 'r' cs
  split
  · exact run_escape 't' cs
  · have hcode : c.toNat < 32 := Char.not_le.1 hcontrol
    obtain ⟨hquote, hbackslash⟩ := digitChar_ne (c.toNat / 16) (by omega)
    obtain ⟨hquote', hbackslash'⟩ := digitChar_ne (c.toNat % 16) (by omega)
    simp only [Quoted.encodeControl, List.cons_append, List.nil_append]
    rw [run_escape, run_inside (by decide) (by decide), run_inside (by decide) (by decide),
      run_inside hquote hbackslash, run_inside hquote' hbackslash']

theorem run_encoded (s rest : List Char) :
    run .inside (s.flatMap Quoted.encodeChar ++ '"' :: rest)
      = s.flatMap Quoted.encodeChar ++ '"' :: run .outside rest := by
  induction s with
  | nil => rfl
  | cons c s ih =>
    rw [List.flatMap_cons, List.append_assoc, run_encodeChar, ih, List.append_assoc]

/-- A quoted text stays as it is, with all the blanks in it. -/
theorem leaves_encode (s : String) : Leaves (Quoted.encode s) (Quoted.encode s) := by
  intro rest
  have hopen (cs : List Char) : run .outside ('"' :: cs) = '"' :: run .inside cs := rfl
  simp only [Quoted.encode, List.cons_append, List.append_assoc, List.nil_append]
  rw [hopen, run_encoded]

/-! ## Numbers -/

theorem solid_digits {ds : List Char} (h : ∀ c ∈ ds, c.isDigit = true) : Solid ds := by
  intro c hc
  obtain ⟨hblank, -, hquote⟩ := Token.plain_of_isDigit (h c hc)
  exact ⟨hblank, hquote⟩

theorem solid_number (n : Number) : Solid n.toChars := by
  obtain ⟨⟨-, hwhole⟩, -, hdecimals, hexponent⟩ := n.proper_numeral
  rw [Number.toChars, Numeral.toChars_eq]
  simp only [Solid, List.forall_mem_append]
  refine ⟨⟨⟨?_, solid_digits hwhole⟩, ?_⟩, ?_⟩
  · split
    · simp [isBlank]
    · simp
  · cases hd : n.numeral.decimals with
    | none => simp [Numeral.decimalChars]
    | some ds =>
      exact List.forall_mem_cons.2 ⟨by decide, solid_digits (hdecimals ds hd).2⟩
  · rcases he : n.numeral.exponent with - | ⟨negative, ds⟩
    · simp [Numeral.exponentChars]
    · have hds : Solid ds := solid_digits (hexponent negative ds he).2
      cases negative with
      | false =>
        exact List.forall_mem_cons.2 ⟨by decide, List.forall_mem_cons.2 ⟨by decide, hds⟩⟩
      | true =>
        exact List.forall_mem_cons.2 ⟨by decide, List.forall_mem_cons.2 ⟨by decide, hds⟩⟩

end Squeeze

/-! ## Values -/

namespace Json

open Squeeze

theorem leaves_comma (isLast : Bool) : Leaves (comma isLast) (comma isLast) := by
  apply leaves_solid
  cases isLast <;> simp [Solid, comma, isBlank]

theorem leaves_char {c : Char} (h : isBlank c = false ∧ c ≠ '"') : Leaves [c] [c] :=
  leaves_solid (by simpa [Solid] using h)

section Render

variable {style : Style} (hstyle : style.Spaced)

include hstyle

theorem leaves_closing (level : Nat) (isEmpty : Bool) :
    Leaves (style.closing level isEmpty) (Style.compact.closing level isEmpty) := by
  have hcompact : Style.compact.closing level isEmpty = [] := ite_self _
  rw [hcompact]
  exact leaves_blanks (hstyle.closing level isEmpty)

mutual
/-- Without its blanks the text of a value is its text in the style that has none. -/
theorem leaves_render : ∀ (v : Json) (level : Nat),
    Leaves (render style level v) (render .compact level v)
  | .null, _ => leaves_solid (by simp [Solid, render, isBlank])
  | .bool true, _ => leaves_solid (by simp [Solid, render, isBlank])
  | .bool false, _ => leaves_solid (by simp [Solid, render, isBlank])
  | .number n, _ => leaves_solid (solid_number n)
  | .text s, _ => leaves_encode s
  | .list items, level =>
    (leaves_char (by decide)).append (((leaves_renderItems items (level + 1)).append
      (leaves_closing hstyle level items.isEmpty)).append (leaves_char (by decide)))
  | .map members, level =>
    (leaves_char (by decide)).append (((leaves_renderMembers members (level + 1)).append
      (leaves_closing hstyle level members.isEmpty)).append (leaves_char (by decide)))
theorem leaves_renderItems : ∀ (items : List Json) (level : Nat),
    Leaves (renderItems style level items) (renderItems .compact level items)
  | [], _ => leaves_nil
  | item :: rest, level =>
    (((leaves_blanks (hstyle.lineBreak level)).append (leaves_render item level)).append
      (leaves_comma rest.isEmpty)).append (leaves_renderItems rest level)
theorem leaves_renderMembers : ∀ (members : List (String × Json)) (level : Nat),
    Leaves (renderMembers style level members) (renderMembers .compact level members)
  | [], _ => leaves_nil
  | (name, value) :: rest, level => by
    obtain ⟨blanks, hcolon, hblanks⟩ := hstyle.colon
    have hsep : Leaves style.colon Style.compact.colon := by
      rw [hcolon]
      exact (leaves_char (by decide)).append (leaves_blanks hblanks)
    have hname := (leaves_blanks (hstyle.lineBreak level)).append (leaves_encode name)
    have hmember := (hname.append hsep).append (leaves_render value level)
    exact (hmember.append (leaves_comma rest.isEmpty)).append (leaves_renderMembers rest level)
end

end Render

/-- Without its blanks the text over several lines is the text on one line. -/
theorem squeeze_pretty (v : Json) : squeeze v.pretty = v.compact := by
  have hrun := leaves_render Style.spaced_pretty v 0 []
  rw [List.append_nil, run, List.append_nil] at hrun
  rw [squeeze, pretty, String.toList_ofList, hrun, compact]

/-- A text is read as a value: it has the tree of the value, nothing follows it, and whoever has
room for the levels of the value gets it. The value names no member twice, so nothing of it is
lost. -/
structure ReadFrom (v : Json) (s : String) : Prop where
  tree : Source.ofChars s.toList = (v.toSource, false)
  value : ∀ room, v.depth ≤ room →
    Source.readAny (.direct room) (Source.ofChars s.toList).1 = .ok v.normal
  distinct : v.Distinct

theorem Distinct.readFrom {v : Json} (h : v.Distinct) {s : String}
    (hs : Source.ofChars s.toList = (v.toSource, false)) : v.ReadFrom s := by
  refine ⟨hs, fun room hroom => ?_, h⟩
  have hcheck := Source.check_toSource_iff.2 hroom
  rw [hs, Source.readAny, Source.readWhole, hcheck, toJson_toSource]
  rfl

end Json

/-! ## Texts of statements -/

namespace Document

open Squeeze (squeeze)

/-- What a document asks for is a statement whose written form names no member twice. -/
theorem distinct_toJson_of_shape {s : String} {d : Document} {st : Statement}
    (hd : ofText s = .ok d) (hst : d.shape = .ok st) : st.toJson.Distinct := by
  obtain ⟨src, -, hread⟩ := statement_of_ofText hd
  obtain ⟨p, hp, rfl⟩ := shape_eq_ok_iff.1 hst
  exact ((Statement.tidy_of_read hread).apply hp).distinct_toJson

/-- Every text of a document fails in both layouts for the same cause, or gives both texts of one
statement. These are the same up to blanks outside of quoted texts. Where the doubles of the statement
are read back as they were printed, either text is read as the value that the statement is written
as. -/
theorem shapeText_layouts (s : String) :
    (∃ failure, ∀ pretty, shapeText pretty s = .error failure) ∨
      ∃ d st, ofText s = .ok d ∧ d.shape = .ok st ∧
        ∃ lines line, shapeText true s = .ok lines ∧ shapeText false s = .ok line ∧
          lines = st.toJson.pretty ∧ line = st.toJson.compact ∧ squeeze lines = line ∧
          (st.toJson.ReadsBack → st.toJson.ReadFrom lines ∧ st.toJson.ReadFrom line) := by
  cases hd : ofText s with
  | error failure =>
    refine .inl ⟨failure, fun pretty => ?_⟩
    rw [shapeText, hd]
    rfl
  | ok d =>
    cases hst : d.shape with
    | error failure =>
      refine .inl ⟨failure, fun pretty => ?_⟩
      rw [shapeText_eq pretty hd, hst]
      rfl
    | ok st =>
      have hdistinct := distinct_toJson_of_shape hd hst
      refine .inr ⟨d, st, rfl, hst, st.toJson.pretty, st.toJson.compact, ?_, ?_, rfl, rfl,
        st.toJson.squeeze_pretty, fun hback => ⟨?_, ?_⟩⟩
      · rw [shapeText_eq true hd, hst]
        rfl
      · rw [shapeText_eq false hd, hst]
        rfl
      · exact hdistinct.readFrom (Source.ofChars_pretty hback)
      · exact hdistinct.readFrom (Source.ofChars_compact hback)

/-- A hint of two doubles, of the least and the greatest integer, and of a text with blanks, quotes, a
backslash and control characters. -/
def assortedHint : Json :=
  .list [.number (.double tenth), .number (.double ⟨true, 9094988921128908188, by decide⟩),
    .number (.int ⟨-9223372036854775808, by decide, by decide⟩),
    .number (.int (.ofUInt64 18446744073709551615)), .text "a \"b\" \\ c\n\x01"]

/-- A document with a statement that has the hint. -/
def hintedSelect : Json :=
  .map [("queryAST", .map [("type", .text "select"), ("hint", assortedHint)])]

def hintedSelection : Statement := { Statement.empty with extra := [("hint", assortedHint)] }

/-- Both texts of the statement are read as the value that it is written as. -/
theorem shapeText_layouts_hintedSelect :
    ∃ lines line, shapeText true hintedSelect.compact = .ok lines ∧
      shapeText false hintedSelect.compact = .ok line ∧ squeeze lines = line ∧
      hintedSelection.toJson.ReadFrom lines ∧ hintedSelection.toJson.ReadFrom line := by
  have hgiven : hintedSelect.ReadsBack := by decide +kernel
  have hd : ofText hintedSelect.compact = .ok ⟨.empty, hintedSelection⟩ :=
    ofText_of_ofChars (Source.ofChars_compact hgiven) rfl
  rcases shapeText_layouts hintedSelect.compact with ⟨failure, hfailure⟩ |
    ⟨d, st, hd', hst, lines, line, hlines, hline, -, -, hsqueeze, hread⟩
  · have hfails := hfailure true
    rw [shapeText_eq true hd] at hfails
    cases hfails
  · obtain rfl := Except.ok.inj (hd.symm.trans hd')
    obtain rfl := Except.ok.inj hst
    obtain ⟨hreadLines, hreadLine⟩ := hread (by decide +kernel)
    exact ⟨lines, line, hlines, hline, hsqueeze, hreadLines, hreadLine⟩

end Document

end QueryShaping
