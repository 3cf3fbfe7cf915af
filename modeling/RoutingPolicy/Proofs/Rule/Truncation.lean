import RoutingPolicy.Proofs.Rule.Decomposition
import RoutingPolicy.Proofs.Rule.Nesting

/-!
# What a decomposition leaves out

The scan of a rule ends at a `REFINE` or `EXCEPT`, or where a leading group is closed, and hands over
text in front of that place. What follows is never looked at: it changes neither the parts of a rule
nor the selector in which no peer is found, only the text of the rule that the error quotes.
-/

namespace RoutingPolicy

open Text

/-- A word that ends the part of a rule that counts: `REFINE` or `EXCEPT` in any letter case. -/
def EndsRule (word : Text) : Prop :=
  Keyword.ofWord? word = some .refine ∨ Keyword.ofWord? word = some .except

instance (word : Text) : Decidable (EndsRule word) :=
  inferInstanceAs (Decidable (_ ∨ _))

theorem endsRule_iff {word : Text} : EndsRule word ↔
    Token.Kind.ofText word = .keyword .refine ∨ Token.Kind.ofText word = .keyword .except := by
  rw [Token.Kind.ofText_eq_keyword_iff, Token.Kind.ofText_eq_keyword_iff, EndsRule]

namespace Decomposition

/-! ### The part that counts -/

theorem scanGroup_of_endsRule {token : Token} (hends : EndsRule token.text) (text : Text)
    (grouped : Bool) (depth : Int) (later : List Token) :
    scanGroup text grouped depth (token :: later) = some (trim (takeBytes token.start text)) := by
  rw [scanGroup]
  rcases endsRule_iff.1 hends with hkind | hkind
  · rw [Token.kind, hkind]
  · rw [Token.kind, hkind]

/-- The scan ends at a refinement or before it, and returns text in front of it. -/
theorem scanGroup_refined (front : Text) {tokens : List Token}
    (htokens : ∀ token ∈ tokens, token.start ≤ byteSize front) (grouped : Bool) (depth : Int) :
    ∃ expression, ∀ (rest : Text) (token : Token) (later : List Token),
      token.start = byteSize front →
      token.kind = .keyword .refine ∨ token.kind = .keyword .except →
      scanGroup (front ++ rest) grouped depth (tokens ++ token :: later) = some expression := by
  induction tokens generalizing depth with
  | nil =>
    refine ⟨trim front, fun rest token later hstart hkind => ?_⟩
    rw [List.nil_append, scanGroup]
    rcases hkind with hkind | hkind <;> simp only [hkind, hstart, takeBytes_byteSize]
  | cons token tokens ih =>
    obtain ⟨hstart, hlater⟩ := List.forall_mem_cons.1 htokens
    have hfront (rest : Text) := takeBytes_append_of_le hstart rest
    cases hkind : token.kind with
    | openBrace =>
      obtain ⟨expression, hexpression⟩ := ih hlater (depth + 1)
      refine ⟨expression, fun rest last later hlast hend => ?_⟩
      rw [List.cons_append, scanGroup, hkind]
      exact hexpression rest last later hlast hend
    | closeBrace =>
      by_cases hclosed : (grouped && depth - 1 == 0) = true
      · refine ⟨trim (takeBytes token.start front).tail, fun rest last later _ _ => ?_⟩
        rw [List.cons_append, scanGroup, hkind]
        simp only [hclosed, if_true, hfront]
      · obtain ⟨expression, hexpression⟩ := ih hlater (depth - 1)
        refine ⟨expression, fun rest last later hlast hend => ?_⟩
        rw [List.cons_append, scanGroup, hkind]
        simp only [hclosed]
        exact hexpression rest last later hlast hend
    | keyword keyword =>
      by_cases hends : keyword = .refine ∨ keyword = .except
      · refine ⟨trim (takeBytes token.start front), fun rest last later _ _ => ?_⟩
        rw [List.cons_append, scanGroup, hkind]
        rcases hends with rfl | rfl <;> simp only [hfront]
      · obtain ⟨expression, hexpression⟩ := ih hlater depth
        refine ⟨expression, fun rest last later hlast hend => ?_⟩
        rw [List.cons_append, scanGroup, hkind]
        rw [not_or] at hends
        split
        all_goals simp_all
    | word | semicolon =>
      obtain ⟨expression, hexpression⟩ := ih hlater depth
      refine ⟨expression, fun rest last later hlast hend => ?_⟩
      rw [List.cons_append, scanGroup, hkind]
      exact hexpression rest last later hlast hend

/-- What counts of a refined rule is settled by what stands in front of the refinement. -/
theorem expression?_refined (front : Text) : ∃ expression, ∀ word rest, EndsRule word →
    expression? (trim (front ++ [' '] ++ word ++ [' '] ++ rest)) = some expression := by
  obtain ⟨expression, hexpression⟩ := scanGroup_refined
    (trimStart (front ++ [' '])) (fun _ => start_le_of_mem_tokenize)
    (isGrouped (tokenize (trimStart (front ++ [' '])))) 0
  refine ⟨expression, fun word rest hword => ?_⟩
  obtain ⟨keyword, hends, hkeyword⟩ : ∃ keyword : Keyword,
      (keyword = .refine ∨ keyword = .except) ∧ Keyword.ofWord? word = some keyword :=
    hword.elim (⟨.refine, .inl rfl, ·⟩) (⟨.except, .inr rfl, ·⟩)
  have hisWord := Keyword.isWord_of_ofWord? hkeyword
  have hkind : (⟨word, byteSize (trimStart (front ++ [' ']))⟩ : Token).kind = .keyword keyword :=
    Token.Kind.ofText_eq_keyword_iff.2 hkeyword
  have hblank : ∀ c ∈ word, isBlank c = false := fun c hc => isBlank_of_isWordChar (hisWord.2 c hc)
  have htrim : trim (front ++ [' '] ++ word ++ [' '] ++ rest) =
      trimStart (front ++ [' ']) ++ word ++ trimEnd ([' '] ++ rest) := by
    have hhead : ∀ c ∈ (word ++ ([' '] ++ rest)).head?, isBlank c = false := by
      intro c hc
      rw [List.head?_append_of_ne_nil _ hisWord.1] at hc
      exact hblank c (List.mem_of_mem_head? hc)
    have hlast : ∀ c ∈ (trimStart (front ++ [' ']) ++ word).getLast?, isBlank c = false := by
      intro c hc
      rw [List.getLast?_append_of_ne_nil _ hisWord.1] at hc
      exact hblank c (List.mem_of_getLast? hc)
    rw [List.append_assoc _ [' '] rest, List.append_assoc _ word, trim,
      trimStart_append_of_head? _ hhead, ← List.append_assoc, trimEnd_append_of_getLast? hlast]
  have hcut : Cut (trimStart (front ++ [' '])) word (trimEnd ([' '] ++ rest)) := by
    refine ⟨.inl hisWord, ?_, ?_⟩
    · have hspace : Apart (front ++ [' ']) word := apart_append_singleton front word (by decide)
      exact hspace.of_suffix (List.dropWhile_suffix isBlank)
    · have hspace : Apart word ([' '] ++ rest) := apart_cons word rest (by decide)
      obtain ⟨tail, htail⟩ : trimEnd ([' '] ++ rest) <+: [' '] ++ rest :=
        List.rdropWhile_prefix isBlank _
      rw [← htail] at hspace
      exact hspace.of_append_right
  have hgroup (token : Token) (later : List Token) (htoken : token.kind = .keyword keyword) :
      isGrouped (tokenize (trimStart (front ++ [' '])) ++ token :: later) =
        isGrouped (tokenize (trimStart (front ++ [' ']))) := by
    cases tokenize (trimStart (front ++ [' '])) with
    | nil => simp [isGrouped, htoken]
    | cons first tokens => rfl
  simp only [expression?, htrim]
  rw [hcut.tokenize_eq, hgroup _ _ hkind, List.append_assoc]
  refine hexpression (word ++ trimEnd ([' '] ++ rest)) _ _ rfl ?_
  rcases hends with rfl | rfl
  · exact .inl hkind
  · exact .inr hkind

section Group

variable {inside : Text} (hinside : WellNested inside)
  (hrefine : containsKeyword inside .refine = false)
  (hexcept : containsKeyword inside .except = false)

include hinside hrefine hexcept

theorem expression?_trim_group (rest : Text) :
    expression? (trim (['{'] ++ inside ++ ['}'] ++ rest)) = some (trim inside) := by
  have hlast : ∀ c ∈ (['{'] ++ inside ++ ['}']).getLast?, isBlank c = false :=
    isBlank_getLast?_concat _ rfl
  have hhead : trimStart (['{'] ++ inside ++ ['}'] ++ rest) = ['{'] ++ inside ++ ['}'] ++ rest :=
    trimStart_of_head? fun c hc => by
      obtain rfl : '{' = c := Option.some.inj hc
      rfl
  rw [trim, hhead, trimEnd_append_of_getLast? hlast]
  exact expression?_group hinside hrefine hexcept (trimEnd rest)

theorem expression?_trim_of_not_grouped (hgroup : isGrouped (tokenize inside) = false) :
    expression? (trim inside) = some (trim inside) := by
  have hcount := count_of_depth?_eq_some (wellNested_trim_iff.2 hinside)
  rw [Nat.zero_add, Nat.zero_add] at hcount
  apply expression?_ungrouped
  · rw [isGrouped_tokenize_trim, hgroup]
  · rw [containsKeyword_trim, hrefine]
  · rw [containsKeyword_trim, hexcept]
  · exact hcount

end Group

end Decomposition

/-! ### The whole decomposition -/

/-- Two rules have the same parts, or both name no peer in the same selector. The errors differ only
in the rule that each of them quotes. -/
def DecomposedAlike (isDefault : Bool) (text other : Text) : Prop :=
  (∃ decomposition, decompose text isDefault = .ok decomposition ∧
    decompose other isDefault = .ok decomposition) ∨
  ∃ selector, decompose text isDefault = .error (.missingFactor selector (trim text)) ∧
    decompose other isDefault = .error (.missingFactor selector (trim other))

theorem decomposedAlike_of_expression? {text other expression : Text} (isDefault : Bool)
    (htext : Decomposition.expression? (trim text) = some expression)
    (hother : Decomposition.expression? (trim other) = some expression) :
    DecomposedAlike isDefault text other := by
  unfold DecomposedAlike decompose
  simp only [htext, hother]
  cases Decomposition.factor? (Decomposition.splitFilter expression isDefault).1 with
  | none => exact .inr ⟨_, rfl, rfl⟩
  | some factor => exact .inl ⟨_, rfl, rfl⟩

/-- What follows a `REFINE` or `EXCEPT`, whether its braces balance or not, does not matter, and
neither does what follows a leading group. The group may be left away if its inside does not begin
with another one. -/
theorem decomposedAlike_of_cut_off (isDefault : Bool) :
    (∀ front word other rest otherRest, EndsRule word → EndsRule other →
      DecomposedAlike isDefault (front ++ [' '] ++ word ++ [' '] ++ rest)
        (front ++ [' '] ++ other ++ [' '] ++ otherRest)) ∧
    ∀ inside, WellNested inside → containsKeyword inside .refine = false →
      containsKeyword inside .except = false →
      (∀ rest otherRest, DecomposedAlike isDefault (['{'] ++ inside ++ ['}'] ++ rest)
        (['{'] ++ inside ++ ['}'] ++ otherRest)) ∧
      (Decomposition.isGrouped (tokenize inside) = false → ∀ rest,
        DecomposedAlike isDefault (['{'] ++ inside ++ ['}'] ++ rest) inside) := by
  constructor
  · intro front word other rest otherRest hword hother
    obtain ⟨expression, hexpression⟩ := Decomposition.expression?_refined front
    exact decomposedAlike_of_expression? isDefault (hexpression word rest hword)
      (hexpression other otherRest hother)
  · intro inside hinside hrefine hexcept
    have hgrouped := Decomposition.expression?_trim_group hinside hrefine hexcept
    constructor
    · intro rest otherRest
      exact decomposedAlike_of_expression? isDefault (hgrouped rest) (hgrouped otherRest)
    · intro hgroup rest
      exact decomposedAlike_of_expression? isDefault (hgrouped rest)
        (Decomposition.expression?_trim_of_not_grouped hinside hrefine hexcept hgroup)

/-- Braces that do not balance, behind a refinement in a group that is left open and behind a group
with another one inside. -/
theorem decomposedAlike_of_unbalanced_rest :
    let front := ['{'] ++ "FROM AS1 ACCEPT AS-FOO;".toList
    let inside := " FROM AS1 ACCEPT {10.0.0.0/8}; ".toList
    let rest := ['}', '}', '{']
    EndsRule "refine".toList ∧ EndsRule "Except".toList ∧
      DecomposedAlike false (front ++ [' '] ++ "refine".toList ++ [' '] ++ rest)
        (front ++ [' '] ++ "Except".toList ++ [' '] ++ []) ∧
      WellNested inside ∧ containsKeyword inside .refine = false ∧
      containsKeyword inside .except = false ∧
      Decomposition.isGrouped (tokenize inside) = false ∧
      DecomposedAlike false (['{'] ++ inside ++ ['}'] ++ rest) (['{'] ++ inside ++ ['}'] ++ []) ∧
      DecomposedAlike false (['{'] ++ inside ++ ['}'] ++ rest) inside := by
  intro front inside rest
  have hword : EndsRule "refine".toList := by decide
  have hother : EndsRule "Except".toList := by decide
  have hinside : WellNested inside := by decide
  have hrefine : containsKeyword inside .refine = false := by decide +kernel
  have hexcept : containsKeyword inside .except = false := by decide +kernel
  have hgroup : Decomposition.isGrouped (tokenize inside) = false := by decide +kernel
  obtain ⟨hrefined, hgrouped⟩ := decomposedAlike_of_cut_off false
  obtain ⟨hbehind, hopened⟩ := hgrouped inside hinside hrefine hexcept
  exact ⟨hword, hother, hrefined front _ _ rest [] hword hother, hinside, hrefine, hexcept, hgroup,
    hbehind rest [], hopened hgroup rest⟩

end RoutingPolicy
