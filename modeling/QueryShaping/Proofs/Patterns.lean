import Mathlib.Data.List.Infix
import QueryShaping.Shaping.Filter

/-!
# Texts that a pattern stands for

A pattern is read from the left. A percent sign lets any characters pass and an underscore any one
character; a backslash takes this meaning from the character behind it. A search escapes the percent
signs and underscores of its text, but no backslashes, so a backslash in the text goes on to escape
what stands behind it.

## What this module delivers

- `Pattern.Piece`, `Pattern.pieces`: what the characters of a pattern ask for.
- `Pattern.Fits`, `Pattern.Matches`: the texts that a pattern stands for, and `Pattern.accepts`, which
  finds out by trying.
- `Pattern.fits_containing_iff`: characters that stand for themselves are found wherever they occur.
- `Pattern.unescapeChars_escapeChars`, `Pattern.containing_inj`: escaping loses nothing.
- `Resolver.search?_literal_iff`: a search finds its text literally exactly if the text has no
  backslash.
-/

set_option autoImplicit false

namespace QueryShaping

namespace Pattern

/-! ## Pieces -/

/-- What a pattern asks for at one place. -/
inductive Piece where
  /-- Any characters, or none. -/
  | any
  /-- Any one character. -/
  | one
  /-- This character. -/
  | exactly (c : Char)
  deriving DecidableEq

/-- What a character asks for that no backslash escapes. -/
def Piece.ofChar (c : Char) : Piece :=
  if c = '%' then .any else if c = '_' then .one else .exactly c

/-- What the characters of a pattern ask for; the flag tells whether a backslash stands before them.
A backslash with nothing behind it stands for itself. -/
def piecesAfter : Bool → List Char → List Piece
  | false, [] => []
  | true, [] => [.exactly '\\']
  | true, c :: rest => .exactly c :: piecesAfter false rest
  | false, c :: rest =>
    if c = '\\' then piecesAfter true rest else .ofChar c :: piecesAfter false rest

/-- What a pattern asks for. -/
def pieces (pattern : String) : List Piece := piecesAfter false pattern.toList

/-- Characters are what pieces ask for, one piece after the other. -/
inductive Fits : List Piece → List Char → Prop where
  | nil : Fits [] []
  | any {ps : List Piece} {cs : List Char} (passed : List Char) : Fits ps cs →
      Fits (.any :: ps) (passed ++ cs)
  | one {ps : List Piece} {cs : List Char} (c : Char) : Fits ps cs → Fits (.one :: ps) (c :: cs)
  | exactly {ps : List Piece} {cs : List Char} (c : Char) : Fits ps cs →
      Fits (.exactly c :: ps) (c :: cs)

/-- A text is one of those that a pattern stands for. -/
def Matches (pattern text : String) : Prop := Fits (pieces pattern) text.toList

/-- Tries the pieces one after the other, and behind a percent sign every rest of the characters. -/
def accepts : List Piece → List Char → Bool
  | [], cs => cs.isEmpty
  | .any :: ps, cs => cs.tails.any (accepts ps)
  | .one :: ps, _ :: cs => accepts ps cs
  | .exactly c :: ps, d :: cs => d = c && accepts ps cs
  | _, [] => false

theorem accepts_iff (ps : List Piece) : ∀ cs : List Char, accepts ps cs = true ↔ Fits ps cs := by
  induction ps with
  | nil =>
    intro cs
    cases cs with
    | nil => exact iff_of_true rfl .nil
    | cons c cs => exact iff_of_false (by simp [accepts]) (fun h => nomatch h)
  | cons p ps ih =>
    intro cs
    cases p with
    | any =>
      simp only [accepts, List.any_eq_true, List.mem_tails]
      constructor
      · rintro ⟨rest, ⟨passed, rfl⟩, hrest⟩
        exact .any passed ((ih rest).1 hrest)
      · intro h
        cases h with
        | @any _ rest passed hrest => exact ⟨rest, ⟨passed, rfl⟩, (ih rest).2 hrest⟩
    | one =>
      cases cs with
      | nil => exact iff_of_false (by simp [accepts]) (fun h => nomatch h)
      | cons c cs =>
        rw [accepts, ih]
        constructor
        · exact .one c
        · intro h
          cases h with
          | one _ hrest => exact hrest
    | exactly d =>
      cases cs with
      | nil => exact iff_of_false (by simp [accepts]) (fun h => nomatch h)
      | cons c cs =>
        rw [accepts, Bool.and_eq_true, decide_eq_true_iff, ih]
        constructor
        · rintro ⟨rfl, hrest⟩
          exact .exactly c hrest
        · intro h
          cases h with
          | exactly _ hrest => exact ⟨rfl, hrest⟩

instance (ps : List Piece) (cs : List Char) : Decidable (Fits ps cs) :=
  decidable_of_iff _ (accepts_iff ps cs)

instance (pattern text : String) : Decidable (Matches pattern text) :=
  inferInstanceAs (Decidable (Fits _ _))

/-! ## Characters that stand for themselves -/

theorem fits_map_exactly_append_iff {text : List Char} {ps : List Piece} :
    ∀ {cs : List Char}, Fits (text.map .exactly ++ ps) cs ↔ ∃ rest, cs = text ++ rest ∧ Fits ps rest := by
  induction text with
  | nil =>
    intro cs
    simp
  | cons c text ih =>
    intro cs
    rw [List.map_cons, List.cons_append]
    constructor
    · intro h
      cases h with
      | exactly _ hfits =>
        obtain ⟨rest, rfl, hrest⟩ := ih.1 hfits
        exact ⟨rest, rfl, hrest⟩
    · rintro ⟨rest, rfl, hrest⟩
      exact .exactly c (ih.2 ⟨rest, rfl, hrest⟩)

/-- Between two percent signs, characters that stand for themselves are found wherever they occur. -/
theorem fits_containing_iff {text cs : List Char} :
    Fits (.any :: (text.map .exactly ++ [.any])) cs ↔ text <:+: cs := by
  constructor
  · intro h
    cases h with
    | any before hrest =>
      obtain ⟨rest, rfl, hrest⟩ := fits_map_exactly_append_iff.1 hrest
      exact ⟨before, rest, List.append_assoc _ _ _⟩
  · rintro ⟨before, rest, rfl⟩
    rw [List.append_assoc]
    refine .any before (fits_map_exactly_append_iff.2 ⟨rest, rfl, ?_⟩)
    have hrest : Fits [.any] (rest ++ []) := .any rest .nil
    rwa [List.append_nil] at hrest

/-! ## Escaped texts -/

theorem escapeChars_cons (c : Char) (text : List Char) :
    escapeChars (c :: text) = escapeChar c ++ escapeChars text := rfl

theorem escapeChar_of_wildcard {c : Char} (h : isWildcard c = true) : escapeChar c = ['\\', c] :=
  if_pos h

theorem escapeChar_of_plain {c : Char} (h : isWildcard c = false) : escapeChar c = [c] := by
  rw [escapeChar, h]
  rfl

theorem isWildcard_iff {c : Char} : isWildcard c = true ↔ c = '%' ∨ c = '_' := by
  simp [isWildcard]

theorem ofChar_of_plain {c : Char} (h : isWildcard c = false) : Piece.ofChar c = .exactly c := by
  rw [← Bool.not_eq_true, isWildcard_iff, not_or] at h
  rw [Piece.ofChar, if_neg h.1, if_neg h.2]

/-- The escaped form of a character stands for the character, unless it is a backslash. -/
theorem piecesAfter_escapeChar {c : Char} (h : c ≠ '\\') (rest : List Char) :
    piecesAfter false (escapeChar c ++ rest) = .exactly c :: piecesAfter false rest := by
  cases hw : isWildcard c with
  | true =>
    rw [escapeChar_of_wildcard hw]
    rfl
  | false =>
    rw [escapeChar_of_plain hw, List.singleton_append, piecesAfter, if_neg h, ofChar_of_plain hw]

/-- A backslash in a text escapes what stands behind it. -/
theorem piecesAfter_escapeChar_backslash (rest : List Char) :
    piecesAfter false (escapeChar '\\' ++ rest) = piecesAfter true rest := rfl

/-- Behind a backslash the escaped form of a wildcard is a backslash and the wildcard. -/
theorem piecesAfter_true_wildcard {c : Char} (h : isWildcard c = true) (rest : List Char) :
    piecesAfter true (escapeChar c ++ rest)
      = .exactly '\\' :: .ofChar c :: piecesAfter false rest := by
  have hc : c ≠ '\\' := by
    rintro rfl
    cases h
  rw [escapeChar_of_wildcard h]
  show .exactly '\\' :: piecesAfter false (c :: rest) = _
  rw [piecesAfter, if_neg hc]

/-- Behind a backslash any other character stands for itself. -/
theorem piecesAfter_true_plain {c : Char} (h : isWildcard c = false) (rest : List Char) :
    piecesAfter true (escapeChar c ++ rest) = .exactly c :: piecesAfter false rest := by
  rw [escapeChar_of_plain h]
  rfl

/-- A text without backslashes is escaped into pieces that stand for its characters. -/
theorem piecesAfter_escapeChars {text : List Char} (h : '\\' ∉ text) (rest : List Char) :
    piecesAfter false (escapeChars text ++ rest)
      = text.map .exactly ++ piecesAfter false rest := by
  induction text with
  | nil => rfl
  | cons c text ih =>
    rw [List.mem_cons, not_or] at h
    rw [escapeChars_cons, List.append_assoc, piecesAfter_escapeChar (Ne.symm h.1), ih h.2]
    rfl

/-- Deletes each backslash that stands directly before a wildcard. -/
def unescapeChars : List Char → List Char
  | [] => []
  | c :: rest =>
    if c = '\\' ∧ rest.head?.any isWildcard = true then unescapeChars rest
    else c :: unescapeChars rest

/-- Escaped characters never start with a wildcard. -/
theorem head?_escapeChars (text : List Char) : (escapeChars text).head?.any isWildcard = false := by
  cases text with
  | nil => rfl
  | cons c text =>
    rw [escapeChars_cons]
    cases hc : isWildcard c with
    | true =>
      rw [escapeChar_of_wildcard hc]
      rfl
    | false =>
      rw [escapeChar_of_plain hc]
      exact hc

/-- Escaping loses nothing: a backslash before a wildcard was added, and any other was there. -/
theorem unescapeChars_escapeChars (text : List Char) : unescapeChars (escapeChars text) = text := by
  induction text with
  | nil => rfl
  | cons c text ih =>
    rw [escapeChars_cons]
    cases hc : isWildcard c with
    | true =>
      have hbackslash : c ≠ '\\' := by
        rintro rfl
        cases hc
      rw [escapeChar_of_wildcard hc]
      show unescapeChars ('\\' :: c :: escapeChars text) = _
      rw [unescapeChars, if_pos ⟨rfl, hc⟩, unescapeChars, if_neg fun h => hbackslash h.1, ih]
    | false =>
      -- a backslash that was there does not stand before a wildcard
      rw [escapeChar_of_plain hc, List.singleton_append, unescapeChars,
        if_neg fun h => by simp [head?_escapeChars] at h, ih]

/-- Different texts are searched by different patterns. -/
theorem containing_inj {text other : String} (h : containing text = containing other) :
    text = other := by
  have hchars := String.ofList_injective h
  have hescaped := List.append_cancel_right (List.cons.inj hchars).2
  exact String.toList_inj.1 (Function.LeftInverse.injective unescapeChars_escapeChars hescaped)

theorem pieces_containing (text : String) :
    pieces (containing text)
      = .any :: piecesAfter false (escapeChars text.toList ++ ['%']) := by
  rw [pieces, containing, String.toList_ofList]
  rfl

/-! ## Texts with backslashes -/

/-- The shortest characters that pieces ask for, with some letter for any one character. -/
def shortest : List Piece → List Char
  | [] => []
  | .any :: ps => shortest ps
  | .one :: ps => 'x' :: shortest ps
  | .exactly c :: ps => c :: shortest ps

theorem fits_shortest (ps : List Piece) : Fits ps (shortest ps) := by
  induction ps with
  | nil => exact .nil
  | cons p ps ih =>
    cases p with
    | any => exact .any [] ih
    | one => exact .one 'x' ih
    | exactly c => exact .exactly c ih

/-- The shortest text that is found by a search is no longer than the text searched for, and another
one if that has a backslash. The second half is the same from behind a backslash on. -/
theorem shortest_piecesAfter (text : List Char) :
    ((shortest (piecesAfter false (escapeChars text ++ ['%']))).length ≤ text.length ∧
        (shortest (piecesAfter false (escapeChars text ++ ['%'])) = text → '\\' ∉ text)) ∧
      (shortest (piecesAfter true (escapeChars text ++ ['%']))).length ≤ text.length + 1 ∧
        shortest (piecesAfter true (escapeChars text ++ ['%'])) ≠ '\\' :: text := by
  induction text with
  | nil => exact ⟨⟨Nat.le_refl 0, fun _ h => nomatch h⟩, Nat.le_refl 1, by decide⟩
  | cons c text ih =>
    obtain ⟨⟨hlength, hsame⟩, hlength', hother⟩ := ih
    rw [escapeChars_cons, List.append_assoc]
    refine ⟨?_, ?_⟩
    · by_cases hc : c = '\\'
      · subst hc
        -- what follows is read from behind the backslash on
        rw [piecesAfter_escapeChar_backslash]
        exact ⟨hlength', fun h => absurd h hother⟩
      · rw [piecesAfter_escapeChar hc, shortest]
        refine ⟨Nat.succ_le_succ hlength, fun h => ?_⟩
        have htext := hsame (List.cons.inj h).2
        rw [List.mem_cons, not_or]
        exact ⟨Ne.symm hc, htext⟩
    · -- what is no longer than before lacks a character
      have hshort {cs : List Char} (h : cs.length ≤ text.length + 1) :
          cs.length ≤ (c :: text).length + 1 ∧ cs ≠ '\\' :: c :: text := by
        refine ⟨Nat.le_succ_of_le h, fun heq => ?_⟩
        rw [heq, List.length_cons, List.length_cons] at h
        omega
      cases hw : isWildcard c with
      | false =>
        -- the backslash is gone, and nothing has come in its place
        rw [piecesAfter_true_plain hw, shortest]
        exact hshort (Nat.succ_le_succ hlength)
      | true =>
        rw [piecesAfter_true_wildcard hw, shortest]
        rcases isWildcard_iff.1 hw with rfl | rfl
        · -- the percent sign lets nothing pass
          exact hshort (Nat.succ_le_succ hlength)
        · -- the underscore lets a letter pass
          refine ⟨Nat.succ_le_succ (Nat.succ_le_succ hlength), fun h => ?_⟩
          have hletter : 'x' = '_' := (List.cons.inj (List.cons.inj h).2).1
          cases hletter

/-- A search for a text with a backslash finds a text in which that text does not occur. -/
theorem exists_fits_not_infix {text : List Char} (h : '\\' ∈ text) :
    ∃ cs, Fits (.any :: piecesAfter false (escapeChars text ++ ['%'])) cs ∧ ¬ text <:+: cs := by
  obtain ⟨⟨hlength, hsame⟩, -⟩ := shortest_piecesAfter text
  refine ⟨_, .any [] (fits_shortest _), fun hinfix => ?_⟩
  -- what contains the text and is no longer is the text itself
  have heq := hinfix.eq_of_length (Nat.le_antisymm hinfix.length_le hlength)
  exact hsame heq.symm h

end Pattern

/-! ## Searches -/

namespace Resolver

open Pattern

/-- Every attribute that is searched is compared with one pattern. The pattern stands for the texts in
which the searched text occurs, and each character of that text for itself, exactly if the text has no
backslash. -/
theorem search?_literal_iff (r : Resolver) (searchable : List String) (text : String) :
    r.search? searchable text = Expr.any? (searchable.map fun name =>
        .like (.column (r.resolve name)) (.literal (.text (containing text)))) ∧
      ((∀ s : String, Matches (containing text) s ↔ text.toList <:+: s.toList) ↔
        '\\' ∉ text.toList) ∧
      (pieces (containing text) = .any :: (text.toList.map .exactly ++ [.any]) ↔
        '\\' ∉ text.toList) := by
  have hpieces (h : '\\' ∉ text.toList) :
      pieces (containing text) = .any :: (text.toList.map .exactly ++ [.any]) := by
    rw [pieces_containing, piecesAfter_escapeChars h]
    rfl
  have hfinds (h : pieces (containing text) = .any :: (text.toList.map .exactly ++ [.any])) :
      ∀ s : String, Matches (containing text) s ↔ text.toList <:+: s.toList := by
    intro s
    rw [Matches, h]
    exact fits_containing_iff
  have hplain (h : ∀ s : String, Matches (containing text) s ↔ text.toList <:+: s.toList) :
      '\\' ∉ text.toList := by
    intro hmem
    obtain ⟨cs, hfits, hnot⟩ := exists_fits_not_infix hmem
    apply hnot
    have hs := (h (String.ofList cs)).1
    rw [Matches, pieces_containing, String.toList_ofList] at hs
    exact hs hfits
  refine ⟨rfl, ⟨hplain, fun h => hfinds (hpieces h)⟩, ⟨fun h => hplain (hfinds h), hpieces⟩⟩

/-- A search for a text with a backslash misses the text itself and finds one in which it does not
occur. -/
theorem search?_backslash :
    (⟨[], some "t"⟩ : Resolver).search? ["c"] "a\\b"
        = some (.like (.column ⟨some "t", "c"⟩) (.literal (.text "%a\\b%"))) ∧
      ¬ Matches "%a\\b%" "a\\b" ∧ Matches "%a\\b%" "ab" ∧
      ¬ "a\\b".toList <:+: "ab".toList := by
  refine ⟨rfl, ?_, ?_, ?_⟩ <;> decide

end Resolver

end QueryShaping
