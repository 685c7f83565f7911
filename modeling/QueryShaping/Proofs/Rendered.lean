import QueryShaping.Json.Render
import QueryShaping.Proofs.Readback
import QueryShaping.Proofs.Values
import QueryShaping.Source.Tree

/-!
# Texts of values that are read

What is written for a value is read as that value: blanks between tokens are skipped, integers and
quoted texts are read back, and what has been opened is closed in turn. This holds of every style that
puts nothing but blanks between the tokens, and of every value whose doubles are read back.

## What this module delivers

- `Quoted.spells_encodeChar`, `Quoted.read_encode`: a quoted text is read back, whatever its
  characters.
- `Token.scan_number`, `Token.scan_quoted`, `Token.scan_blanks`: the first token of a text.
- `Json.tokens`, `Json.scan_render`: the tokens of a value, and that its text is cut into them.
- `Source.steps_tokens`: the tokens of a value build its tree.
- `Source.ofChars_compact`, `Source.ofChars_pretty`: the tree of a text of a value is that of the
  value.
-/

set_option autoImplicit false

namespace QueryShaping

/-! ## Quoted texts -/

namespace Quoted

/-- Two digits are enough for the code of a control character. -/
theorem unit?_control : ∀ n < 32,
    unit? '0' '0' (Nat.digitChar (n / 16)) (Nat.digitChar (n % 16)) = some n := by
  decide

/-- Characters that are scanned as one piece, which denotes a character. -/
def Spells (cs : List Char) (c : Char) : Prop :=
  ∃ p : Piece, (∀ rest, scan (cs ++ rest) = cons p (scan rest)) ∧
    ∀ stop pieces, decode stop (p :: pieces) = (c :: ·) <$> decode stop pieces

theorem spells_self {c : Char} (hspecial : ¬ (c = '"' ∨ c = '\\')) (hprintable : ' ' ≤ c) :
    Spells [c] c := by
  obtain ⟨hquote, hbackslash⟩ := not_or.1 hspecial
  refine ⟨.char c, fun rest => ?_, fun _ _ => rfl⟩
  simp [scan, hbackslash, Char.not_lt.2 hprintable]

theorem spells_short {c e : Char} (h : shortEscape? e = some c) : Spells ['\\', e] c := by
  have hu : e ≠ 'u' := by
    rintro rfl
    cases h
  refine ⟨.char c, fun rest => ?_, fun _ _ => rfl⟩
  simp [scan, h, hu]

theorem spells_encodeControl {c : Char} (h : c.toNat < 32) : Spells (encodeControl c) c := by
  refine ⟨.unit c.toNat, fun rest => ?_, fun stop pieces => ?_⟩
  · simp [encodeControl, scan, unit?_control c.toNat h]
  · -- a code below 32 is no half of a pair
    have htrailing : isTrailing c.toNat = false := by
      rw [isTrailing, Bool.and_eq_false_iff, decide_eq_false_iff_not]
      omega
    have hleading : isLeading c.toNat = false := by
      rw [isLeading, Bool.and_eq_false_iff, decide_eq_false_iff_not]
      omega
    rw [decode.eq_def]
    simp only [htrailing, hleading, Bool.false_eq_true, if_false, Char.ofNat_toNat]

/-- The written form of a character spells the character. -/
theorem spells_encodeChar (c : Char) : Spells (encodeChar c) c := by
  rw [encodeChar]
  split
  · next h =>
    apply spells_short
    rcases h with rfl | rfl <;> rfl
  next hspecial =>
  split
  · next hprintable => exact spells_self hspecial hprintable
  next hcontrol =>
  -- five control characters have short forms
  split
  · next h => exact spells_short (h ▸ rfl)
  split
  · next h => exact spells_short (h ▸ rfl)
  split
  · next h => exact spells_short (h ▸ rfl)
  split
  · next h => exact spells_short (h ▸ rfl)
  split
  · next h => exact spells_short (h ▸ rfl)
  · exact spells_encodeControl (Char.not_le.1 hcontrol)

/-- Up to its closing quote a written text is scanned as pieces that denote it. -/
theorem scan_encoded (cs rest : List Char) :
    ∃ pieces, scan (cs.flatMap encodeChar ++ '"' :: rest) = (pieces, .closed rest) ∧
      decode none pieces = .ok cs := by
  induction cs with
  | nil => exact ⟨[], by simp [scan], rfl⟩
  | cons c cs ih =>
    obtain ⟨pieces, hscan, hdecode⟩ := ih
    obtain ⟨p, hp, hdenotes⟩ := spells_encodeChar c
    refine ⟨p :: pieces, ?_, ?_⟩
    · rw [List.flatMap_cons, List.append_assoc, hp, hscan]
      rfl
    · rw [hdenotes, hdecode]
      rfl

/-- A quoted text is read back. -/
theorem read_encode (s : String) (rest : List Char) :
    read (s.toList.flatMap encodeChar ++ '"' :: rest) = (.text s, rest) := by
  obtain ⟨pieces, hscan, hdecode⟩ := scan_encoded s.toList rest
  rw [read, hscan]
  simp only [ofPieces, hdecode, String.ofList_toList]

end Quoted

/-! ## First tokens -/

namespace Token

theorem scan_cons {cs rest : List Char} {t : Token} (h : next cs = some (t, rest)) :
    scan cs = t :: scan rest := by
  rw [scan]
  split
  · next hnone => cases hnone.symm.trans h
  · next hsome =>
    obtain ⟨rfl, rfl⟩ := Prod.mk.inj (Option.some.inj (hsome.symm.trans h))
    rfl

theorem scan_nil : scan [] = [] := by
  rw [scan]
  rfl

/-- Where the first tokens are the same, so are all others. -/
theorem scan_congr {cs cs' : List Char} (h : next cs = next cs') : scan cs = scan cs' := by
  cases hnext : next cs' with
  | none =>
    rw [hnext] at h
    rw [scan, scan]
    split
    · split
      · rfl
      · next hsome => cases hsome.symm.trans hnext
    · next hsome => cases hsome.symm.trans h
  | some found =>
    obtain ⟨t, rest⟩ := found
    rw [scan_cons hnext, scan_cons (h.trans hnext)]

theorem scan_blanks {blanks : List Char} (h : ∀ c ∈ blanks, isBlank c = true) (cs : List Char) :
    scan (blanks ++ cs) = scan cs := by
  have hskip : skipBlanks (blanks ++ cs) = skipBlanks cs := by
    induction blanks with
    | nil => rfl
    | cons c blanks ih =>
      obtain ⟨hc, hblanks⟩ := List.forall_mem_cons.1 h
      rw [← ih hblanks]
      exact List.dropWhile_cons_of_pos hc
  apply scan_congr
  unfold next
  rw [hskip]

theorem scan_starting {c : Char} (h : isBlank c = false) (cs : List Char) :
    scan (c :: cs) = (starting c cs).1 :: scan (starting c cs).2 := by
  apply scan_cons
  have hskip : skipBlanks (c :: cs) = c :: cs := List.dropWhile_cons_of_neg (by simp [h])
  rw [next]
  rw [hskip]

theorem scan_punctuation {c : Char} {t : Token} (h : ofPunctuation? c = some t)
    (hblank : isBlank c = false) (cs : List Char) : scan (c :: cs) = t :: scan cs := by
  rw [scan_starting hblank, starting, h]

theorem scan_quoted (s : String) (cs : List Char) :
    scan (Quoted.encode s ++ cs) = .atom (.text (.text s)) :: scan cs := by
  have hread := Quoted.read_encode s cs
  have hstart : starting '"' (s.toList.flatMap Quoted.encodeChar ++ '"' :: cs)
      = (.atom (.text (.text s)), cs) := by
    simp [starting, ofPunctuation?, readAtom?, readText, hread]
  rw [Quoted.encode, List.cons_append, List.append_assoc, scan_starting (by decide)]
  rw [List.singleton_append, hstart]

/-- A numeral begins with a minus sign or a digit. -/
theorem exists_head_toChars (n : Number) :
    ∃ c cs, n.toChars = c :: cs ∧ (c = '-' ∨ c.isDigit = true) := by
  obtain ⟨⟨hne, hall⟩, -, -, -⟩ := n.proper_numeral
  rw [Number.toChars]
  rw [Numeral.toChars_eq]
  cases hwhole : n.numeral.whole with
  | nil => exact absurd hwhole hne
  | cons c cs =>
    cases n.numeral.negative with
    | false =>
      refine ⟨c, _, rfl, Or.inr (hall c ?_)⟩
      rw [hwhole]
      exact List.mem_cons_self
    | true => exact ⟨'-', _, rfl, Or.inl rfl⟩

/-- No digit is a blank, a bracket, a separator or a quote. -/
theorem plain_of_isDigit {c : Char} (h : c.isDigit = true) :
    isBlank c = false ∧ ofPunctuation? c = none ∧ c ≠ '"' := by
  refine ⟨?_, ?_, ?_⟩
  · simp only [isBlank, Bool.or_eq_false_iff, decide_eq_false_iff_not]
    refine ⟨⟨⟨?_, ?_⟩, ?_⟩, ?_⟩ <;> rintro rfl <;> exact absurd h (by decide)
  · rw [ofPunctuation?]
    repeat' split
    all_goals first
      | rfl
      | (next heq => subst heq; exact absurd h (by decide))
  · rintro rfl
    exact absurd h (by decide)

theorem scan_number {n : Number} (hback : (Json.number n).ReadsBack) {cs : List Char}
    (h : Numeral.Ends cs) : scan (n.toChars ++ cs) = .atom (.number n) :: scan cs := by
  have hread : readNumber (n.toChars ++ cs) = (.number n, cs) := by
    rw [readNumber, Number.toChars, Numeral.scan_toChars n.proper_numeral h]
    simp only [Json.ofNumeral?_numeral hback]
  obtain ⟨c, tail, hchars, hc⟩ := exists_head_toChars n
  rw [hchars] at hread ⊢
  have hstart : isBlank c = false ∧ ofPunctuation? c = none ∧ c ≠ '"' := by
    rcases hc with rfl | hdigit
    · decide
    · exact plain_of_isDigit hdigit
  obtain ⟨hblank, hpunctuation, hquote⟩ := hstart
  rw [List.cons_append, scan_starting hblank, starting, hpunctuation]
  simp only [readAtom?, if_neg hquote, if_pos hc]
  rw [← List.cons_append, hread]

theorem scan_null (cs : List Char) : scan ('n' :: 'u' :: 'l' :: 'l' :: cs) = .atom .null :: scan cs := by
  rw [scan_starting (by decide)]
  rfl

theorem scan_bool (b : Bool) (cs : List Char) :
    scan ((if b then ['t', 'r', 'u', 'e'] else ['f', 'a', 'l', 's', 'e']) ++ cs)
      = .atom (.bool b) :: scan cs := by
  cases b with
  | false =>
    show scan ('f' :: _) = _
    rw [scan_starting (by decide)]
    rfl
  | true =>
    show scan ('t' :: _) = _
    rw [scan_starting (by decide)]
    rfl

end Token

/-! ## Tokens of values -/

namespace Json

mutual
/-- The tokens of a value. Uses auxiliary list forms so the nested recursion is structural. -/
def tokens : Json → List Token
  | .null => [.atom .null]
  | .bool b => [.atom (.bool b)]
  | .number n => [.atom (.number n)]
  | .text s => [.atom (.text (.text s))]
  | .list items => .openList :: (itemTokens items ++ [.closeList])
  | .map members => .openMap :: (memberTokens members ++ [.closeMap])
/-- The tokens of the items of a list, with commas between them. -/
def itemTokens : List Json → List Token
  | [] => []
  | item :: rest => tokens item ++ (if rest.isEmpty then [] else [.comma]) ++ itemTokens rest
/-- The tokens of the members of a map, with commas between them. -/
def memberTokens : List (String × Json) → List Token
  | [] => []
  | (name, value) :: rest =>
    .atom (.text (.text name)) :: .colon :: tokens value
      ++ (if rest.isEmpty then [] else [.comma]) ++ memberTokens rest
end

/-- A style that puts nothing but blanks between the tokens. -/
structure Style.Spaced (style : Style) : Prop where
  lineBreak : ∀ level, ∀ c ∈ style.lineBreak level, Token.isBlank c = true
  colon : ∃ blanks, style.colon = ':' :: blanks ∧ ∀ c ∈ blanks, Token.isBlank c = true

theorem Style.spaced_compact : Style.compact.Spaced where
  lineBreak _ c hc := by cases hc
  colon := ⟨[], rfl, by simp⟩

theorem Style.spaced_pretty : Style.pretty.Spaced where
  lineBreak level c hc := by
    rcases List.mem_cons.1 hc with rfl | hc
    · decide
    · rw [List.eq_of_mem_replicate hc]
      decide
  colon := ⟨[' '], rfl, by simp [Token.isBlank]⟩

/-- No blank continues a numeral. -/
theorem ends_of_blanks {blanks cs : List Char} (h : ∀ c ∈ blanks, Token.isBlank c = true)
    (hcs : Numeral.Ends cs) : Numeral.Ends (blanks ++ cs) := by
  cases blanks with
  | nil => exact hcs
  | cons b blanks =>
    intro c hc
    obtain rfl : b = c := Option.some.inj hc
    have hb := h b List.mem_cons_self
    simp only [Token.isBlank, Bool.or_eq_true, decide_eq_true_eq] at hb
    rcases hb with ((rfl | rfl) | rfl) | rfl <;> decide

/-- What follows an item is a comma, or what follows the list. -/
theorem ends_comma {isLast : Bool} {cs : List Char} (h : isLast = true → Numeral.Ends cs) :
    Numeral.Ends (comma isLast ++ cs) := by
  cases isLast with
  | true => exact h rfl
  | false => exact Numeral.ends_cons (by decide) cs

theorem scan_comma (isLast : Bool) (cs : List Char) :
    Token.scan (comma isLast ++ cs) = (if isLast then [] else [.comma]) ++ Token.scan cs := by
  cases isLast with
  | true => rfl
  | false => exact Token.scan_punctuation rfl (by decide) cs

section Scan

variable {style : Style} (hstyle : style.Spaced)

include hstyle

theorem Style.Spaced.closing (level : Nat) (isEmpty : Bool) :
    ∀ c ∈ style.closing level isEmpty, Token.isBlank c = true := by
  rw [Style.closing]
  split
  · intro c hc
    cases hc
  · exact hstyle.lineBreak level

mutual
/-- The text of a value is cut into the tokens of the value. -/
theorem scan_render : ∀ (v : Json) (level : Nat) (cs : List Char), v.ReadsBack → Numeral.Ends cs →
    Token.scan (render style level v ++ cs) = v.tokens ++ Token.scan cs
  | .null, _, cs, _, _ => Token.scan_null cs
  | .bool true, _, cs, _, _ => Token.scan_bool true cs
  | .bool false, _, cs, _, _ => Token.scan_bool false cs
  | .number _, _, _, hback, h => Token.scan_number hback h
  | .text s, _, cs, _, _ => Token.scan_quoted s cs
  | .list items, level, cs, hback, h => by
    have hends : Numeral.Ends (style.closing level items.isEmpty ++ (']' :: cs)) :=
      ends_of_blanks (hstyle.closing level _) (Numeral.ends_cons (by decide) cs)
    simp only [render, tokens, List.cons_append, List.append_assoc, List.nil_append]
    rw [Token.scan_punctuation rfl (by decide), scan_renderItems items (level + 1) _ hback hends,
      Token.scan_blanks (hstyle.closing level _), Token.scan_punctuation rfl (by decide)]
  | .map members, level, cs, hback, h => by
    have hends : Numeral.Ends (style.closing level members.isEmpty ++ ('\x7d' :: cs)) :=
      ends_of_blanks (hstyle.closing level _) (Numeral.ends_cons (by decide) cs)
    simp only [render, tokens, List.cons_append, List.append_assoc, List.nil_append]
    rw [Token.scan_punctuation rfl (by decide), scan_renderMembers members (level + 1) _ hback hends,
      Token.scan_blanks (hstyle.closing level _), Token.scan_punctuation rfl (by decide)]
theorem scan_renderItems : ∀ (items : List Json) (level : Nat) (cs : List Char),
    (∀ x ∈ itemDoubles items, x.ReadsBack) → Numeral.Ends cs →
      Token.scan (renderItems style level items ++ cs) = itemTokens items ++ Token.scan cs
  | [], _, _, _, _ => rfl
  | item :: rest, level, cs, hback, h => by
    obtain ⟨hitem, hrest⟩ := List.forall_mem_append.1 hback
    have hends : Numeral.Ends (comma rest.isEmpty ++ (renderItems style level rest ++ cs)) := by
      apply ends_comma
      intro hlast
      rw [List.isEmpty_iff.1 hlast]
      exact h
    simp only [renderItems, itemTokens, List.append_assoc]
    rw [Token.scan_blanks (hstyle.lineBreak level), scan_render item level _ hitem hends,
      scan_comma, scan_renderItems rest level cs hrest h]
theorem scan_renderMembers : ∀ (members : List (String × Json)) (level : Nat) (cs : List Char),
    (∀ x ∈ memberDoubles members, x.ReadsBack) → Numeral.Ends cs →
      Token.scan (renderMembers style level members ++ cs) = memberTokens members ++ Token.scan cs
  | [], _, _, _, _ => rfl
  | (name, value) :: rest, level, cs, hback, h => by
    obtain ⟨hvalue, hrest⟩ := List.forall_mem_append.1 hback
    obtain ⟨blanks, hcolon, hblanks⟩ := hstyle.colon
    have hends : Numeral.Ends (comma rest.isEmpty ++ (renderMembers style level rest ++ cs)) := by
      apply ends_comma
      intro hlast
      rw [List.isEmpty_iff.1 hlast]
      exact h
    simp only [renderMembers, memberTokens, hcolon, List.append_assoc, List.cons_append]
    rw [Token.scan_blanks (hstyle.lineBreak level), Token.scan_quoted,
      Token.scan_punctuation rfl (by decide), Token.scan_blanks hblanks,
      scan_render value level _ hvalue hends, scan_comma, scan_renderMembers rest level cs hrest h]
end

end Scan

end Json

/-! ## Trees of tokens -/

namespace Source

open Progress (steps step)

/-- Neither a list nor a map is ended by the first token of a value. -/
theorem exists_head_tokens (v : Json) :
    ∃ t ts, v.tokens = t :: ts ∧ t ≠ .closeList := by
  cases v with
  | list items => exact ⟨.openList, _, rfl, nofun⟩
  | map members => exact ⟨.openMap, _, rfl, nofun⟩
  | _ => exact ⟨.atom _, _, rfl, nofun⟩

/-- A value may stand after a comma as it may stand anywhere. -/
theorem steps_listComma (v : Json) (before : List Source) (frames : List Frame) (ts : List Token) :
    steps (.listComma before frames) (v.tokens ++ ts)
      = steps (.value (.inList before :: frames)) (v.tokens ++ ts) := by
  obtain ⟨t, rest, hv, ht⟩ := exists_head_tokens v
  rw [hv]
  cases t with
  | closeList => exact absurd rfl ht
  | _ => rfl

/-- So it may at the start of a list. -/
theorem steps_listStart (v : Json) (frames : List Frame) (ts : List Token) :
    steps (.listStart frames) (v.tokens ++ ts) = steps (.listComma [] frames) (v.tokens ++ ts) := by
  obtain ⟨t, rest, hv, ht⟩ := exists_head_tokens v
  rw [hv]
  cases t with
  | closeList => exact absurd rfl ht
  | _ => rfl

mutual
/-- Where a value is due, the tokens of a value build its tree. -/
theorem steps_tokens : ∀ (v : Json) (frames : List Frame) (ts : List Token),
    steps (.value frames) (v.tokens ++ ts) = steps (.full v.toSource frames) ts
  | .null, _, _ => rfl
  | .bool _, _, _ => rfl
  | .number _, _, _ => rfl
  | .text _, _, _ => rfl
  | .list items, frames, ts => by
    simp only [Json.tokens, List.cons_append, List.append_assoc, List.nil_append]
    show steps (.listStart frames) _ = _
    cases items with
    | nil => rfl
    | cons item rest =>
      have hstart := steps_listStart item frames
        ((if rest.isEmpty then [] else [.comma]) ++ (Json.itemTokens rest ++ .closeList :: ts))
      have hitems := steps_itemTokens (item :: rest) [] frames ts nofun
      simp only [Json.itemTokens, List.append_assoc] at hitems ⊢
      exact hstart.trans hitems
  | .map members, frames, ts => by
    simp only [Json.tokens, List.cons_append, List.append_assoc, List.nil_append]
    show steps (.mapStart frames) _ = _
    cases members with
    | nil => rfl
    | cons member rest => exact steps_memberTokens (member :: rest) [] frames ts nofun
theorem steps_itemTokens : ∀ (items : List Json) (before : List Source) (frames : List Frame)
    (ts : List Token), items ≠ [] →
      steps (.listComma before frames) (Json.itemTokens items ++ .closeList :: ts)
        = steps (.full (.list (before.reverse ++ Json.itemsToSource items) .closed) frames) ts
  | [], _, _, _, h => absurd rfl h
  | item :: rest, before, frames, ts, _ => by
    rw [Json.itemTokens, List.append_assoc, List.append_assoc, steps_listComma, steps_tokens]
    cases rest with
    | nil =>
      rw [Json.itemsToSource, Json.itemsToSource, ← List.reverse_cons]
      rfl
    | cons next rest =>
      have hrest := steps_itemTokens (next :: rest) (item.toSource :: before) frames ts nofun
      rw [List.reverse_cons, List.append_assoc] at hrest
      exact hrest
theorem steps_memberTokens : ∀ (members : List (String × Json)) (before : List (Quoted × Source))
    (frames : List Frame) (ts : List Token), members ≠ [] →
      steps (.mapComma before frames) (Json.memberTokens members ++ .closeMap :: ts)
        = steps (.full (.map (before.reverse ++ Json.membersToSource members) .closed) frames) ts
  | [], _, _, _, h => absurd rfl h
  | (name, value) :: rest, before, frames, ts, _ => by
    simp only [Json.memberTokens, List.append_assoc, List.cons_append]
    -- the name and the colon lead to where its value is due
    refine (steps_tokens value (.inMap before (.text name) :: frames) _).trans ?_
    cases rest with
    | nil =>
      rw [Json.membersToSource, Json.membersToSource, ← List.reverse_cons]
      rfl
    | cons next rest =>
      have hrest := steps_memberTokens (next :: rest) ((.text name, value.toSource) :: before) frames
        ts nofun
      rw [List.reverse_cons, List.append_assoc] at hrest
      exact hrest
end

/-- A text that is cut into the tokens of a value has the tree of the value. -/
theorem ofChars_of_scan {cs : List Char} {v : Json} (h : Token.scan cs = v.tokens) :
    ofChars cs = (v.toSource, false) := by
  have hsteps := steps_tokens v [] []
  rw [List.append_nil] at hsteps
  rw [ofChars, h, hsteps]
  rfl

theorem ofChars_render {style : Json.Style} (h : style.Spaced) {v : Json} (hback : v.ReadsBack) :
    ofChars (v.render style 0) = (v.toSource, false) := by
  apply ofChars_of_scan
  have hscan := Json.scan_render h v 0 [] hback nofun
  rwa [List.append_nil, Token.scan_nil, List.append_nil] at hscan

/-- The text of a value on one line is read as the value. -/
theorem ofChars_compact {v : Json} (hback : v.ReadsBack) :
    ofChars v.compact.toList = (v.toSource, false) := by
  rw [Json.compact, String.toList_ofList]
  exact ofChars_render Json.Style.spaced_compact hback

/-- So is its text over several lines. -/
theorem ofChars_pretty {v : Json} (hback : v.ReadsBack) :
    ofChars v.pretty.toList = (v.toSource, false) := by
  rw [Json.pretty, String.toList_ofList]
  exact ofChars_render Json.Style.spaced_pretty hback

end Source

end QueryShaping
