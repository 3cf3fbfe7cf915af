import RoutingPolicy.Proofs.Rule.Padding
import RoutingPolicy.Proofs.Text.Nesting
import RoutingPolicy.Rule.Decomposition

/-!
# Braces among tokens

Each brace of a text is a token of its own, so the tokens nest as the text does. A scan for the part of
a rule that counts passes through well nested tokens and comes back to the depth at which it was,
wherever it started.
-/

namespace RoutingPolicy

open Text

theorem Text.IsLexeme.braceless {lexeme : Text} (hlexeme : IsLexeme lexeme) (hopen : lexeme ≠ ['{'])
    (hclose : lexeme ≠ ['}']) : Braceless lexeme := by
  rcases hlexeme with hword | ⟨c, -, rfl⟩
  · exact ⟨hword.not_mem (by decide), hword.not_mem (by decide)⟩
  · constructor
    · intro hmem
      exact hopen (by rw [List.mem_singleton.1 hmem])
    · intro hmem
      exact hclose (by rw [List.mem_singleton.1 hmem])

/-- The tokens of a text are the text without its blanks. -/
theorem flatten_lexemes (text : Text) : (lexemes text).flatten = text.filter (!isBlank ·) := by
  rw [lexemes, tokenize]
  fun_induction Token.scan 0 text with
  | case1 start => rfl
  | case2 start c rest hblank ih => rw [ih, List.filter_cons_of_neg (by simp [hblank])]
  | case3 start c rest hblank hdelimiter ih =>
    rw [List.map_cons, List.flatten_cons, ih, List.filter_cons_of_pos (by simp [hblank])]
    rfl
  | case4 start c rest hblank hdelimiter word ih =>
    have hword : ∀ d ∈ word, (!isBlank d) = true := by
      intro d hd
      rw [isBlank_of_isWordChar ((isWord_cons_takeWhile hblank hdelimiter rest).2 d hd),
        Bool.not_false]
    have hsplit : c :: rest = word ++ rest.dropWhile isWordChar := by
      rw [List.cons_append, List.takeWhile_append_dropWhile]
    rw [List.map_cons, List.flatten_cons, ih, hsplit, List.filter_append,
      List.filter_eq_self.2 hword]

theorem depth?_lexemes (depth : Nat) (text : Text) :
    depth? depth (lexemes text).flatten = depth? depth text := by
  rw [flatten_lexemes, depth?_filter_not_isBlank]

theorem lexemes_trim (text : Text) : lexemes (trim text) = lexemes text := by
  obtain ⟨before, after, hbefore, hafter, htext⟩ := exists_eq_append_trim text
  conv_rhs => rw [htext]
  rw [lexemes_padded hbefore hafter]

theorem lexemes_trimEnd (text : Text) : lexemes (trimEnd text) = lexemes text := by
  obtain ⟨blanks, hblanks, htext⟩ := exists_eq_trimEnd_append text
  have hpadded := lexemes_padded (List.forall_mem_nil _) hblanks (trimEnd text)
  rw [List.nil_append, ← htext] at hpadded
  exact hpadded.symm

theorem containsKeyword_trim (text : Text) (keyword : Keyword) :
    containsKeyword (trim text) keyword = containsKeyword text keyword := by
  rw [containsKeyword_eq_any, containsKeyword_eq_any, lexemes_trim]

namespace Decomposition

theorem isGrouped_eq (tokens : List Token) :
    isGrouped tokens = (tokens.map Token.text).head?.any (Token.Kind.ofText · == .openBrace) := by
  rw [isGrouped, List.head?_map, Option.any_map]
  rfl

theorem isGrouped_tokenize_trim (text : Text) :
    isGrouped (tokenize (trim text)) = isGrouped (tokenize text) := by
  rw [isGrouped_eq, isGrouped_eq, ← lexemes, ← lexemes, lexemes_trim]

/-- Well nested tokens leave the scan where it was, unless one of them ends it. The base is the depth
that the scan has already reached, and a leading group stays open as long as it is positive. -/
theorem scanGroup_nested (text : Text) {grouped : Bool} {base : Int}
    (hbase : grouped = true → 0 < base) {tokens : List Token}
    (htokens : ∀ token ∈ tokens, IsLexeme token.text ∧ token.kind ≠ .keyword .refine ∧
      token.kind ≠ .keyword .except) {depth behind : Nat}
    (hdepth : depth? depth (tokens.map Token.text).flatten = some behind) (rest : List Token) :
    scanGroup text grouped (depth + base) (tokens ++ rest) =
      scanGroup text grouped (behind + base) rest := by
  induction tokens generalizing depth with
  | nil => rw [Option.some.inj hdepth, List.nil_append]
  | cons token tokens ih =>
    obtain ⟨⟨hlexeme, hrefine, hexcept⟩, hlater⟩ := List.forall_mem_cons.1 htokens
    rw [List.map_cons, List.flatten_cons] at hdepth
    rw [List.cons_append, scanGroup]
    split
    next hkind =>
      rw [Token.Kind.ofText_eq_openBrace_iff.1 hkind, List.singleton_append, depth?_open] at hdepth
      rw [← ih hlater hdepth]
      congr 1
      push_cast
      omega
    next hkind =>
      rw [Token.Kind.ofText_eq_closeBrace_iff.1 hkind, List.singleton_append] at hdepth
      cases depth with
      | zero => simp at hdepth
      | succ depth =>
        rw [depth?_close_succ] at hdepth
        have hdown : ((depth + 1 : Nat) : Int) + base - 1 = depth + base := by
          push_cast
          omega
        rw [hdown, if_neg, ih hlater hdepth]
        -- the group is still open, since the braces of the tokens stay above the base
        intro hclosed
        rw [Bool.and_eq_true, beq_iff_eq] at hclosed
        have hpositive := hbase hclosed.1
        omega
    next hkind => exact absurd hkind hrefine
    next hkind => exact absurd hkind hexcept
    next hopen hclose _ _ =>
      have hbraceless : Braceless token.text := hlexeme.braceless
        (fun heq => hopen (Token.Kind.ofText_eq_openBrace_iff.2 heq))
        (fun heq => hclose (Token.Kind.ofText_eq_closeBrace_iff.2 heq))
      rw [hbraceless.depth?_append_left] at hdepth
      exact ih hlater hdepth

end Decomposition

end RoutingPolicy
