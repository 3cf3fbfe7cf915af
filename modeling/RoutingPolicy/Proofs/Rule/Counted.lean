import RoutingPolicy.Proofs.Rule.Truncation

/-!
# The tokens that count

Of the tokens of a rule those count that stand inside a leading group or, without one, in front of the
first `REFINE` or `EXCEPT`. Here they are told without positions and without cutting the text, by the
number of braces that stand open inside of the group.
-/

namespace RoutingPolicy

open Text

namespace Decomposition

/-- The tokens of a group that has been opened, up to the brace that closes it or a refinement. -/
def insideGroup : Nat → List Text → List Text
  | _, [] => []
  | depth, lexeme :: lexemes =>
    if EndsRule lexeme then []
    else if lexeme = ['{'] then lexeme :: insideGroup (depth + 1) lexemes
    else if lexeme = ['}'] then
      match depth with
      | 0 => []
      | depth + 1 => lexeme :: insideGroup depth lexemes
    else lexeme :: insideGroup depth lexemes

/-- The tokens that count, without the brace that opens a leading group. -/
def counted (text : Text) : List Text :=
  if isGrouped (tokenize text) then insideGroup 0 (lexemes text).tail
  else (lexemes text).takeWhile (!EndsRule ·)

/-- Whether there is a `REFINE` or `EXCEPT` anywhere in a rule. -/
def Refined (text : Text) : Prop := ∃ lexeme ∈ lexemes text, EndsRule lexeme

instance (text : Text) : Decidable (Refined text) :=
  inferInstanceAs (Decidable (∃ lexeme ∈ lexemes text, EndsRule lexeme))

theorem not_endsRule_open : ¬EndsRule ['{'] := by decide

theorem not_endsRule_close : ¬EndsRule ['}'] := by decide

section InsideGroup

variable {lexeme : Text} (depth : Nat) (lexemes : List Text)

theorem insideGroup_of_endsRule (hends : EndsRule lexeme) :
    insideGroup depth (lexeme :: lexemes) = [] := by
  rw [insideGroup.eq_def]
  simp only [if_pos hends]

theorem insideGroup_open :
    insideGroup depth (['{'] :: lexemes) = ['{'] :: insideGroup (depth + 1) lexemes := by
  rw [insideGroup.eq_def]
  simp only [if_neg not_endsRule_open, if_true]

theorem insideGroup_close_zero : insideGroup 0 (['}'] :: lexemes) = [] := by
  rw [insideGroup, if_neg not_endsRule_close, if_neg (by decide), if_pos rfl]

theorem insideGroup_close_succ :
    insideGroup (depth + 1) (['}'] :: lexemes) = ['}'] :: insideGroup depth lexemes := by
  rw [insideGroup, if_neg not_endsRule_close, if_neg (by decide), if_pos rfl]

theorem insideGroup_of_ne (hends : ¬EndsRule lexeme) (hopen : lexeme ≠ ['{'])
    (hclose : lexeme ≠ ['}']) :
    insideGroup depth (lexeme :: lexemes) = lexeme :: insideGroup depth lexemes := by
  rw [insideGroup.eq_def]
  simp only [if_neg hends, if_neg hopen, if_neg hclose]

theorem insideGroup_of_head? (hends : ∀ lexeme ∈ lexemes.head?, EndsRule lexeme) :
    insideGroup depth lexemes = [] := by
  cases lexemes with
  | nil => rfl
  | cons lexeme lexemes => exact insideGroup_of_endsRule depth lexemes (hends lexeme rfl)

end InsideGroup

/-! ### Braces -/

/-- Tokens that close no group and end no rule are passed as they are. -/
theorem insideGroup_append {passed : List Text}
    (hpassed : ∀ lexeme ∈ passed, IsLexeme lexeme ∧ ¬EndsRule lexeme) {depth behind : Nat}
    (hdepth : depth? depth passed.flatten = some behind) (rest : List Text) :
    insideGroup depth (passed ++ rest) = passed ++ insideGroup behind rest := by
  induction passed generalizing depth with
  | nil =>
    obtain rfl := Option.some.inj hdepth
    rfl
  | cons lexeme passed ih =>
    obtain ⟨⟨hlexeme, hends⟩, hlater⟩ := List.forall_mem_cons.1 hpassed
    rw [List.flatten_cons] at hdepth
    rw [List.cons_append, List.cons_append]
    by_cases hopen : lexeme = ['{']
    · subst hopen
      rw [insideGroup_open, ih hlater hdepth]
    by_cases hclose : lexeme = ['}']
    · subst hclose
      cases depth with
      | zero => simp at hdepth
      | succ depth => rw [insideGroup_close_succ, ih hlater hdepth]
    · rw [(hlexeme.braceless hopen hclose).depth?_append_left] at hdepth
      rw [insideGroup_of_ne _ _ hends hopen hclose, ih hlater hdepth]

theorem counted_trim (text : Text) : counted (trim text) = counted text := by
  rw [counted, counted, isGrouped_tokenize_trim, lexemes_trim]

theorem forall_lexemes_of_not_refined {text : Text} (hrefined : ¬Refined text) :
    ∀ lexeme ∈ lexemes text, IsLexeme lexeme ∧ ¬EndsRule lexeme := by
  intro lexeme hmem
  exact ⟨isLexeme_of_mem_lexemes hmem, fun hends => hrefined ⟨lexeme, hmem, hends⟩⟩

theorem lexemes_eq_cons_tail {text : Text} (hhead : text.head? = some '{') :
    lexemes text = ['{'] :: lexemes text.tail := by
  obtain ⟨rest, rfl⟩ := List.head?_eq_some_iff.1 hhead
  have happart : Apart ['{'] rest := apart_append_singleton [] rest (by decide)
  rw [List.tail_cons, ← List.singleton_append, lexemes_append happart,
    lexemes_of_isLexeme (.inr ⟨'{', rfl, rfl⟩), List.singleton_append]

theorem isGrouped_of_head? {text : Text} (hhead : text.head? = some '{') :
    isGrouped (tokenize text) = true := by
  rw [isGrouped_eq, ← lexemes, lexemes_eq_cons_tail hhead]
  rfl

end Decomposition

end RoutingPolicy
