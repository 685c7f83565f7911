import Mathlib.Data.List.Chain
import Mathlib.Data.String.Basic
import QueryShaping.Proofs.Leaves

/-!
# What escaping a text keeps

The escaped form of a text has a backslash directly before each wildcard, and deleting these
backslashes gives the text back. Backslashes of the text are not escaped, so one of them may stand
before a backslash that was added; the deleted one is always the nearer to the wildcard. The texts
with a backslash directly before each wildcard are the escaped forms and no others.

## What this module delivers

- `Pattern.Guarded`: a backslash stands directly before each wildcard.
- `Pattern.escapeChars_unescapeChars`: what escaping makes of a text from which backslashes were
  deleted.
- `Pattern.escape_eq_iff`: which text is the escaped form of another.
- `Resolver.search?_eq_iff`: searches for different texts become different conditions.
- `Pattern.escape_lossless`: escaping goes character by character, guards every wildcard and loses
  nothing, and neither does the pattern.
-/

set_option autoImplicit false

namespace QueryShaping

namespace Pattern

/-! ## Guarded characters -/

/-- Directly before each wildcard stands a backslash. -/
def Guarded (cs : List Char) : Prop :=
  ∀ (before : List Char) (c : Char) (after : List Char), cs = before ++ c :: after →
    isWildcard c = true → before.getLast? = some '\\'

/-- Of two neighbours the second is a wildcard only if the first is a backslash. -/
def Guards (c d : Char) : Prop := isWildcard d = true → c = '\\'

instance (c d : Char) : Decidable (Guards c d) := inferInstanceAs (Decidable (_ → _))

/-- No wildcard stands first, and of all neighbours the first guards the second. -/
theorem guarded_iff {cs : List Char} :
    Guarded cs ↔ cs.head?.any isWildcard = false ∧ cs.IsChain Guards := by
  rw [List.isChain_iff_forall_rel_of_append_cons_cons]
  constructor
  · intro h
    refine ⟨?_, fun c d before after hcs hd => ?_⟩
    · cases cs with
      | nil => rfl
      | cons c cs =>
        rw [List.head?_cons, Option.any_some, ← Bool.not_eq_true]
        intro hc
        cases h [] c cs rfl hc
    · have hlast := h (before ++ [c]) d after (by rw [hcs, List.append_assoc]; rfl) hd
      rw [List.getLast?_concat] at hlast
      exact Option.some.inj hlast
  · rintro ⟨hhead, hchain⟩ before c after rfl hc
    rcases List.eq_nil_or_concat' before with rfl | ⟨front, last, rfl⟩
    · rw [List.nil_append, List.head?_cons, Option.any_some, hc] at hhead
      cases hhead
    · obtain rfl : last = '\\' := hchain (List.append_assoc front [last] (c :: after)) hc
      exact List.getLast?_concat

instance (cs : List Char) : Decidable (Guarded cs) := decidable_of_iff _ guarded_iff.symm

/-! ## Escaping character by character -/

theorem escapeChars_append (text other : List Char) :
    escapeChars (text ++ other) = escapeChars text ++ escapeChars other :=
  List.flatMap_append

theorem isChain_escapeChar (c : Char) : (escapeChar c).IsChain Guards := by
  cases hc : isWildcard c with
  | true =>
    rw [escapeChar_of_wildcard hc]
    exact List.isChain_pair.2 fun _ => rfl
  | false =>
    rw [escapeChar_of_plain hc]
    exact .singleton c

theorem guarded_escapeChars (text : List Char) : Guarded (escapeChars text) := by
  refine guarded_iff.2 ⟨head?_escapeChars text, ?_⟩
  induction text with
  | nil => exact .nil
  | cons c text ih =>
    rw [escapeChars_cons]
    refine (isChain_escapeChar c).append ih fun _ _ d hd hwild => ?_
    -- what follows does not start with a wildcard
    have hhead := head?_escapeChars text
    rw [Option.mem_def.1 hd, Option.any_some, hwild] at hhead
    cases hhead

/-! ## Deleting and escaping again -/

/-- If each wildcard but one at the front is guarded, then the backslashes that were deleted come
back, and one is added before a wildcard at the front. -/
theorem escapeChars_unescapeChars {cs : List Char} (h : cs.IsChain Guards) :
    escapeChars (unescapeChars cs)
      = if cs.head?.any isWildcard = true then '\\' :: cs else cs := by
  fun_induction unescapeChars cs with
  | case1 => rfl
  | case2 c rest hdeleted ih =>
    -- the backslash is deleted here, and comes back before the rest
    obtain ⟨rfl, hwild⟩ := hdeleted
    rw [ih h.tail, if_pos hwild]
    rfl
  | case3 c rest hkept ih =>
    have hplain : ¬ rest.head?.any isWildcard = true := by
      intro hwild
      obtain ⟨d, hd, hdwild⟩ := (Option.any_eq_true _ _).1 hwild
      exact hkept ⟨(List.isChain_cons.1 h).1 d hd hdwild, hwild⟩
    rw [escapeChars_cons, ih h.tail, if_neg hplain, List.head?_cons, Option.any_some, escapeChar]
    split <;> rfl

/-- The guarded characters are the escaped ones, and each is the escaped form of what is left when
the guards are deleted. -/
theorem escapeChars_eq_iff {text cs : List Char} :
    escapeChars text = cs ↔ Guarded cs ∧ unescapeChars cs = text := by
  constructor
  · rintro rfl
    exact ⟨guarded_escapeChars text, unescapeChars_escapeChars text⟩
  · rintro ⟨hguarded, rfl⟩
    obtain ⟨hhead, hchain⟩ := guarded_iff.1 hguarded
    rw [escapeChars_unescapeChars hchain, if_neg (Bool.not_eq_true _ ▸ hhead)]

/-! ## Texts -/

/-- A text without the backslashes that stand directly before a wildcard. -/
def unescape (text : String) : String := String.ofList (unescapeChars text.toList)

theorem escape_append (a b : String) : escape (a ++ b) = escape a ++ escape b := by
  rw [escape, String.toList_append, escapeChars_append, String.ofList_append]
  rfl

theorem escape_eq_iff {a t : String} :
    escape a = t ↔ Guarded t.toList ∧ unescape t = a := by
  rw [escape, unescape, String.ofList_eq, String.ofList_eq, escapeChars_eq_iff]

/-- A text that is no escaped form: its percent sign is not guarded. -/
example : ¬ Guarded "\\_%".toList ∧ escape (unescape "\\_%") = "\\_\\%" := by decide

theorem unescape_escape (a : String) : unescape (escape a) = a := (escape_eq_iff.1 rfl).2

theorem escape_injective : Function.Injective escape :=
  Function.LeftInverse.injective unescape_escape

end Pattern

/-! ## Searches -/

namespace Resolver

open Pattern

theorem contains_inj {column column' : Column} {a b : String}
    (h : contains column a = contains column' b) : column = column' ∧ a = b := by
  obtain ⟨-, hcolumn, hpattern, -⟩ := Expr.binary.inj h
  exact ⟨Expr.column.inj hcolumn, containing_inj (Literal.text.inj (Expr.literal.inj hpattern))⟩

/-- Searches for two texts become the same condition only if no attribute is searched or the texts
are the same. -/
theorem search?_eq_iff (r : Resolver) (searchable : List String) {a b : String} :
    r.search? searchable a = r.search? searchable b ↔ searchable = [] ∨ a = b := by
  constructor
  · intro h
    cases searchable with
    | nil => exact .inl rfl
    | cons name names =>
      obtain ⟨e, he⟩ : ∃ e, r.search? (name :: names) a = some e := ⟨_, rfl⟩
      -- the tests of the first attribute are the first leaves of one condition
      have hleaves := (leaves_of_search? he).symm.trans (leaves_of_search? (h ▸ he))
      exact .inr (contains_inj (List.cons.inj hleaves).1).2
  · rintro (rfl | rfl) <;> rfl

end Resolver

namespace Pattern

/-- Escaping goes through a text piece by piece. Its result has a backslash directly before each
wildcard, and gives the text back when these backslashes are deleted; every text with such
backslashes is a result. So different texts have different escaped forms, are searched by different
patterns, and become different conditions wherever an attribute is searched. -/
theorem escape_lossless (a b : String) :
    escape (a ++ b) = escape a ++ escape b ∧
      Guarded (escape a).toList ∧
      unescape (escape a) = a ∧
      (∀ t : String, escape a = t ↔ Guarded t.toList ∧ unescape t = a) ∧
      (escape a = escape b ↔ a = b) ∧
      (containing a = containing b ↔ a = b) ∧
      ∀ (r : Resolver) (searchable : List String),
        r.search? searchable a = r.search? searchable b ↔ searchable = [] ∨ a = b :=
  ⟨escape_append a b, (escape_eq_iff.1 rfl).1, unescape_escape a, fun _ => escape_eq_iff,
    escape_injective.eq_iff, ⟨containing_inj, congrArg containing⟩,
    fun r searchable => r.search?_eq_iff searchable⟩

/-- Of two backslashes before a wildcard the nearer was added. -/
example : escape "5\\%" = "5\\\\%" ∧ unescape "5\\\\%" = "5\\%" := by decide

end Pattern

end QueryShaping
