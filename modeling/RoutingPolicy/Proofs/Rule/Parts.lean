import RoutingPolicy.Proofs.Rule.Division

/-!
# Rules written in parts

A rule is written as a sequence of parts with single blanks between them: a keyword, an address, a
filter of several words. Whatever a reader cuts out of such a rule at one of its parts is again a
sequence of the same parts.
-/

namespace RoutingPolicy

open Text

/-- A text that can be put between blanks without loss. -/
structure Solid (part : Text) : Prop where
  ne_nil : part ≠ []
  trimmed : Trimmed part

theorem Text.IsLexeme.solid {lexeme : Text} (hlexeme : IsLexeme lexeme) : Solid lexeme :=
  ⟨hlexeme.ne_nil, hlexeme.trimmed⟩

theorem PlainWord.solid {word : Text} (hword : PlainWord word) : Solid word :=
  IsLexeme.solid (.inl hword.isWord)

theorem solid_name (keyword : Keyword) : Solid keyword.name :=
  IsLexeme.solid (.inl (isWord_name keyword))

theorem Solid.lexemes_ne_nil {part : Text} (hpart : Solid part) : lexemes part ≠ [] := by
  obtain ⟨c, hc⟩ := Option.isSome_iff_exists.1 (List.isSome_head?.2 hpart.ne_nil)
  exact RoutingPolicy.lexemes_ne_nil (List.mem_of_mem_head? hc) (hpart.trimmed.1 c hc)

/-- The parts with a blank between each two of them. -/
def spaced (parts : List Text) : Text := [' '].intercalate parts

/-- The parts, each with a blank after it. -/
def leading (parts : List Text) : Text := parts.flatMap (· ++ [' '])

/-- The parts, each with a blank before it. -/
def trailing (parts : List Text) : Text := parts.flatMap ([' '] ++ ·)

section Layout

variable (part : Text) (before after parts : List Text)

@[simp] theorem spaced_nil : spaced [] = [] := rfl

@[simp] theorem leading_nil : leading [] = [] := rfl

@[simp] theorem trailing_nil : trailing [] = [] := rfl

@[simp] theorem spaced_singleton : spaced [part] = part := List.intercalate_singleton

theorem leading_append : leading (before ++ after) = leading before ++ leading after :=
  List.flatMap_append

theorem trailing_append : trailing (before ++ after) = trailing before ++ trailing after :=
  List.flatMap_append

theorem leading_cons : leading (part :: parts) = part ++ [' '] ++ leading parts :=
  List.flatMap_cons

theorem trailing_cons : trailing (part :: parts) = [' '] ++ part ++ trailing parts :=
  List.flatMap_cons

theorem spaced_cons : spaced (part :: parts) = part ++ trailing parts := by
  induction parts generalizing part with
  | nil => rw [spaced_singleton, trailing_nil, List.append_nil]
  | cons next parts ih =>
    rw [spaced, List.intercalate_cons_cons, ← spaced, ih, trailing_cons, List.append_assoc,
      List.append_assoc]

theorem trailing_cons_eq : trailing (part :: parts) = [' '] ++ spaced (part :: parts) := by
  rw [trailing_cons, spaced_cons, List.append_assoc]

theorem leading_cons_eq : leading (part :: parts) = spaced (part :: parts) ++ [' '] := by
  induction parts generalizing part with
  | nil => rw [leading_cons, spaced_cons, leading_nil, trailing_nil, List.append_nil,
      List.append_nil]
  | cons next parts ih =>
    rw [leading_cons, ih, spaced_cons part, trailing_cons_eq]
    simp only [List.append_assoc]

/-- Several parts make up one larger part. -/
theorem leading_flatMap_eq {α : Type} (items : List α) {f : α → List Text}
    (hne : ∀ item, f item ≠ []) :
    leading (items.flatMap f) = leading (items.map fun item => spaced (f item)) := by
  induction items with
  | nil => rfl
  | cons item items ih =>
    obtain ⟨first, others, hitem⟩ := List.exists_cons_of_ne_nil (hne item)
    rw [List.flatMap_cons, leading_append, ih, List.map_cons, leading_cons, hitem, leading_cons_eq]

/-- A rule is cut at one of its parts. -/
theorem spaced_append_cons :
    spaced (before ++ part :: after) = leading before ++ part ++ trailing after := by
  cases before with
  | nil => rw [List.nil_append, spaced_cons, leading_nil, List.nil_append]
  | cons first before =>
    rw [List.cons_append, spaced_cons, trailing_append, trailing_cons, leading_cons_eq, spaced_cons]
    simp only [List.append_assoc]

theorem trailing_append_space : trailing parts ++ [' '] = [' '] ++ leading parts := by
  induction parts with
  | nil => rfl
  | cons part parts ih =>
    rw [trailing_cons, leading_cons, List.append_assoc, ih]
    simp only [List.append_assoc]

theorem trailing_append_cons :
    trailing (before ++ part :: after) = [' '] ++ leading before ++ part ++ trailing after := by
  rw [trailing_append, trailing_cons, ← trailing_append_space]
  simp only [List.append_assoc]

theorem spaced_append_singleton : spaced (before ++ [part]) = leading before ++ part := by
  rw [spaced_append_cons, trailing_nil, List.append_nil]

theorem spaced_append_of_ne_nil (hbefore : before ≠ []) (hafter : after ≠ []) :
    spaced (before ++ after) = spaced before ++ [' '] ++ spaced after := by
  obtain ⟨first, before, rfl⟩ := List.exists_cons_of_ne_nil hbefore
  obtain ⟨next, after, rfl⟩ := List.exists_cons_of_ne_nil hafter
  rw [spaced_append_cons, leading_cons_eq, spaced_cons next, List.append_assoc]

theorem leading_append_cons :
    leading (before ++ part :: after) = leading before ++ part ++ ([' '] ++ leading after) := by
  rw [leading_append, leading_cons]
  simp only [List.append_assoc]

end Layout

/-! ### Parts between blanks -/

section Trimming

variable {parts : List Text}

theorem solid_spaced (hparts : ∀ part ∈ parts, Solid part) (hne : parts ≠ []) :
    Solid (spaced parts) := by
  induction parts with
  | nil => exact absurd rfl hne
  | cons part parts ih =>
    have hpart := hparts part List.mem_cons_self
    cases parts with
    | nil => rwa [spaced_singleton]
    | cons next parts =>
      have hrest := ih (fun p hp => hparts p (List.mem_cons_of_mem part hp))
        (List.cons_ne_nil next parts)
      rw [spaced_cons, trailing_cons_eq, ← List.append_assoc]
      exact ⟨by simp, hpart.trimmed.append hrest.trimmed hpart.ne_nil hrest.ne_nil [' ']⟩

theorem trim_spaced (hparts : ∀ part ∈ parts, Solid part) : trim (spaced parts) = spaced parts := by
  by_cases hne : parts = []
  · rw [hne]; rfl
  · exact (solid_spaced hparts hne).trimmed.trim_eq

theorem trim_leading (hparts : ∀ part ∈ parts, Solid part) :
    trim (leading parts) = spaced parts := by
  cases parts with
  | nil => rfl
  | cons part parts => rw [leading_cons_eq, trim_append_space, trim_spaced hparts]

theorem trim_trailing (hparts : ∀ part ∈ parts, Solid part) :
    trim (trailing parts) = spaced parts := by
  cases parts with
  | nil => rfl
  | cons part parts =>
    rw [trailing_cons_eq, List.singleton_append, trim_cons_space, trim_spaced hparts]

theorem spaced_eq_nil_iff (hparts : ∀ part ∈ parts, Solid part) :
    spaced parts = [] ↔ parts = [] := by
  constructor
  · intro hspaced
    by_contra hne
    exact (solid_spaced hparts hne).ne_nil hspaced
  · rintro rfl
    rfl

end Trimming

/-! ### Tokens of the parts -/

theorem apart_leading (parts : List Text) (after : Text) : Apart (leading parts) after := by
  cases parts with
  | nil => exact apart_nil_left after
  | cons part parts =>
    rw [leading_cons_eq]
    exact apart_append_singleton _ after (by decide)

theorem apart_trailing (before : Text) (parts : List Text) : Apart before (trailing parts) := by
  cases parts with
  | nil => exact apart_nil_right before
  | cons part parts =>
    rw [trailing_cons_eq, List.singleton_append]
    exact apart_cons before _ (by decide)

theorem cut_trailing {lexeme : Text} (hlexeme : IsLexeme lexeme) (before after : List Text) :
    Cut (leading before) lexeme (trailing after) :=
  ⟨hlexeme, apart_leading before lexeme, apart_trailing lexeme after⟩

theorem cut_space_trailing {lexeme : Text} (hlexeme : IsLexeme lexeme) (before after : List Text) :
    Cut ([' '] ++ leading before) lexeme (trailing after) := by
  refine ⟨hlexeme, ?_, apart_trailing lexeme after⟩
  rw [← trailing_append_space]
  exact apart_append_singleton _ lexeme (by decide)

theorem cut_leading {lexeme : Text} (hlexeme : IsLexeme lexeme) (before after : List Text) :
    Cut (leading before) lexeme ([' '] ++ leading after) :=
  ⟨hlexeme, apart_leading before lexeme, apart_cons lexeme _ (by decide)⟩

theorem tokenize_spaced_cons {lexeme : Text} (hlexeme : IsLexeme lexeme) (parts : List Text) :
    tokenize (spaced (lexeme :: parts)) =
      ⟨lexeme, 0⟩ :: Token.scan (byteSize lexeme) (trailing parts) := by
  have htokens := (cut_trailing hlexeme [] parts).tokenize_eq
  rwa [leading_nil, List.nil_append, ← spaced_cons, tokenize_nil, List.nil_append] at htokens

theorem scan_leading_cons (start : Nat) {lexeme : Text} (hlexeme : IsLexeme lexeme)
    (parts : List Text) : Token.scan start (leading (lexeme :: parts)) =
      ⟨lexeme, start⟩ :: Token.scan (start + byteSize lexeme) ([' '] ++ leading parts) := by
  have happart : Apart lexeme ([' '] ++ leading parts) := apart_cons lexeme _ (by decide)
  rw [leading_cons, List.append_assoc, Token.scan_append start happart,
    Token.scan_lexeme start hlexeme, List.singleton_append]

theorem scan_cons_space (start : Nat) (text : Text) :
    Token.scan start ([' '] ++ text) = Token.scan (start + 1) text := by
  rw [List.singleton_append, Token.scan, if_pos (by decide)]
  rfl

theorem lexemes_leading (parts : List Text) : lexemes (leading parts) = parts.flatMap lexemes := by
  induction parts with
  | nil => rw [leading_nil, lexemes_nil, List.flatMap_nil]
  | cons part parts ih =>
    rw [leading_cons, lexemes_separated, ih, List.flatMap_cons]

theorem lexemes_spaced (parts : List Text) : lexemes (spaced parts) = parts.flatMap lexemes := by
  cases parts with
  | nil => rw [spaced_nil, lexemes_nil, List.flatMap_nil]
  | cons part parts => rw [← lexemes_append_space, ← leading_cons_eq, lexemes_leading]

theorem lexemes_trailing (parts : List Text) :
    lexemes (trailing parts) = parts.flatMap lexemes := by
  cases parts with
  | nil => rw [trailing_nil, lexemes_nil, List.flatMap_nil]
  | cons part parts =>
    rw [trailing_cons_eq, List.singleton_append, lexemes_cons_space, lexemes_spaced]

theorem scan_trailing_ne_nil (start : Nat) {parts : List Text}
    (hparts : ∀ part ∈ parts, Solid part) (hne : parts ≠ []) :
    Token.scan start (trailing parts) ≠ [] := by
  obtain ⟨part, parts, rfl⟩ := List.exists_cons_of_ne_nil hne
  rw [ne_eq, ← List.map_eq_nil_iff, map_text_scan_eq_lexemes, lexemes_trailing,
    List.flatMap_cons, List.append_eq_nil_iff, not_and_or]
  exact .inl (hparts part List.mem_cons_self).lexemes_ne_nil

/-- The keyword occurs in none of the parts. -/
def Without (keyword : Keyword) (parts : List Text) : Prop :=
  ∀ part ∈ parts, containsKeyword part keyword = false

section Keywords

variable {keyword : Keyword} {before after parts : List Text}

theorem Without.nil (keyword : Keyword) : Without keyword [] := fun _ hmem =>
  absurd hmem List.not_mem_nil

theorem Without.append (hbefore : Without keyword before) (hafter : Without keyword after) :
    Without keyword (before ++ after) :=
  List.forall_mem_append.2 ⟨hbefore, hafter⟩

theorem Without.cons {part : Text} (hpart : containsKeyword part keyword = false)
    (hparts : Without keyword parts) : Without keyword (part :: parts) :=
  List.forall_mem_cons.2 ⟨hpart, hparts⟩

theorem Without.singleton {part : Text} (hpart : containsKeyword part keyword = false) :
    Without keyword [part] :=
  Without.cons hpart (Without.nil keyword)

theorem PlainWord.without {word : Text} (hword : PlainWord word) (keyword : Keyword) :
    Without keyword [word] :=
  Without.singleton (hword.containsKeyword_eq_false keyword)

theorem containsKeyword_spaced (hparts : Without keyword parts) :
    containsKeyword (spaced parts) keyword = false := by
  rw [containsKeyword_eq_any, lexemes_spaced, List.any_flatMap, List.any_eq_false]
  intro part hpart
  rw [← containsKeyword_eq_any, hparts part hpart]
  exact Bool.false_ne_true

theorem containsKeyword_spaced_of_mem (hmem : keyword.name ∈ parts) :
    containsKeyword (spaced parts) keyword = true := by
  rw [containsKeyword_eq_any, lexemes_spaced, List.any_flatMap, List.any_eq_true]
  refine ⟨keyword.name, hmem, ?_⟩
  rw [← containsKeyword_eq_any, containsKeyword_name_self]

theorem containsKeyword_leading (hparts : Without keyword parts) :
    containsKeyword (leading parts) keyword = false := by
  rw [containsKeyword_eq_any, lexemes_leading, ← lexemes_spaced, ← containsKeyword_eq_any,
    containsKeyword_spaced hparts]

theorem containsKeyword_trailing (hparts : Without keyword parts) :
    containsKeyword (trailing parts) keyword = false := by
  rw [containsKeyword_eq_any, lexemes_trailing, ← lexemes_spaced, ← containsKeyword_eq_any,
    containsKeyword_spaced hparts]

theorem cutAtFirst_spaced (hbefore : Without keyword before) (after : List Text) :
    CutAtFirst keyword (spaced (before ++ keyword.name :: after)) (leading before) keyword.name
      (trailing after) :=
  ⟨⟨cut_trailing (.inl (isWord_name keyword)) before after, spaced_append_cons _ _ _,
    keyword.ofWord?_name⟩, containsKeyword_leading hbefore⟩

theorem cutAtLast_leading (before : List Text) (hafter : Without keyword after) :
    CutAtLast keyword (leading (before ++ keyword.name :: after)) (leading before) keyword.name
      ([' '] ++ leading after) :=
  ⟨⟨cut_leading (.inl (isWord_name keyword)) before after, leading_append_cons _ _ _,
    keyword.ofWord?_name⟩,
    (containsKeyword_cons_space _ _).trans (containsKeyword_leading hafter)⟩

theorem cutAtLast_trailing (before : List Text) (hafter : Without keyword after) :
    CutAtLast keyword (trailing (before ++ keyword.name :: after)) ([' '] ++ leading before)
      keyword.name (trailing after) :=
  ⟨⟨cut_space_trailing (.inl (isWord_name keyword)) before after, trailing_append_cons _ _ _,
    keyword.ofWord?_name⟩, containsKeyword_trailing hafter⟩

end Keywords

/-! ### The vocabulary of parts -/

/-- Parts without braces that hold no keywords but the given ones. -/
structure Uses (keywords : List Keyword) (parts : List Text) : Prop where
  solid : ∀ part ∈ parts, Solid part
  braceless : ∀ part ∈ parts, '{' ∉ part ∧ '}' ∉ part
  without : ∀ keyword, keyword ∉ keywords → Without keyword parts

section Vocabulary

variable {keywords : List Keyword} {keyword : Keyword} {part : Text} {parts : List Text}

theorem Uses.nil : Uses keywords [] :=
  ⟨by simp, by simp, fun keyword _ => Without.nil keyword⟩

theorem Uses.append {before after : List Text} (hbefore : Uses keywords before)
    (hafter : Uses keywords after) : Uses keywords (before ++ after) where
  solid := List.forall_mem_append.2 ⟨hbefore.solid, hafter.solid⟩
  braceless := List.forall_mem_append.2 ⟨hbefore.braceless, hafter.braceless⟩
  without keyword hkeyword :=
    Without.append (hbefore.without keyword hkeyword) (hafter.without keyword hkeyword)

theorem Uses.cons (hpart : Uses keywords [part]) (hparts : Uses keywords parts) :
    Uses keywords (part :: parts) :=
  Uses.append hpart hparts

theorem Uses.flatMap {α : Type} {items : List α} {f : α → List Text}
    (hitems : ∀ item ∈ items, Uses keywords (f item)) : Uses keywords (items.flatMap f) := by
  induction items with
  | nil => exact Uses.nil
  | cons item items ih =>
    rw [List.flatMap_cons]
    exact Uses.append (hitems item List.mem_cons_self)
      (ih fun other hother => hitems other (List.mem_cons_of_mem item hother))

theorem uses_name (hkeyword : keyword ∈ keywords) : Uses keywords [keyword.name] where
  solid := List.forall_mem_singleton.2 (solid_name keyword)
  braceless := List.forall_mem_singleton.2 (by cases keyword <;> decide)
  without other hother :=
    Without.singleton (containsKeyword_name fun heq => hother (heq ▸ hkeyword))

theorem PlainWord.uses {word : Text} (hword : PlainWord word) : Uses keywords [word] where
  solid := List.forall_mem_singleton.2 hword.solid
  braceless :=
    List.forall_mem_singleton.2 ⟨hword.isWord.not_mem (by decide), hword.isWord.not_mem (by decide)⟩
  without keyword _ := hword.without keyword

theorem containsKeyword_append_semicolon (text : Text) (keyword : Keyword) :
    containsKeyword (text ++ [';']) keyword = containsKeyword text keyword := by
  have hsemicolon : IsLexeme [';'] := .inr ⟨';', rfl, rfl⟩
  have hnone : containsKeyword [';'] keyword = false := by
    rw [containsKeyword_eq_any, lexemes_of_isLexeme hsemicolon]
    rfl
  rw [containsKeyword_append (apart_cons text [] (by decide)), hnone, Bool.or_false]

theorem Solid.append_semicolon (hpart : Solid part) : Solid (part ++ [';']) where
  ne_nil := List.append_ne_nil_of_left_ne_nil hpart.ne_nil [';']
  trimmed := hpart.trimmed.append_two (by decide) hpart.ne_nil (List.cons_ne_nil ';' [])

/-- A semicolon behind a part is no keyword. -/
theorem Uses.statement (hpart : Uses keywords [part]) : Uses keywords [part ++ [';']] where
  solid := by
    have hsolid := hpart.solid
    rw [List.forall_mem_singleton] at hsolid ⊢
    exact hsolid.append_semicolon
  braceless := by
    have hbraceless := hpart.braceless
    rw [List.forall_mem_singleton] at hbraceless ⊢
    simpa using hbraceless
  without keyword hkeyword := by
    have hwithout := hpart.without keyword hkeyword
    rw [Without, List.forall_mem_singleton] at hwithout ⊢
    rw [containsKeyword_append_semicolon, hwithout]

theorem Uses.mono {more : List Keyword} (hparts : Uses keywords parts) (hsubset : keywords ⊆ more) :
    Uses more parts where
  solid := hparts.solid
  braceless := hparts.braceless
  without keyword hkeyword := hparts.without keyword fun hmem => hkeyword (hsubset hmem)

theorem Uses.count_leading (hparts : Uses keywords parts) {c : Char}
    (hc : c = '{' ∨ c = '}') : (leading parts).count c = 0 := by
  rw [List.count_eq_zero]
  intro hmem
  obtain ⟨part, hpart, hmem⟩ := List.mem_flatMap.1 hmem
  obtain ⟨hopen, hclose⟩ := hparts.braceless part hpart
  rcases hc with rfl | rfl
  · simp [hopen] at hmem
  · simp [hclose] at hmem

theorem Uses.count_spaced (hparts : Uses keywords parts) {c : Char}
    (hc : c = '{' ∨ c = '}') : (spaced parts).count c = 0 := by
  cases parts with
  | nil => rfl
  | cons part parts =>
    have hcount := hparts.count_leading hc
    rw [leading_cons_eq, List.count_append] at hcount
    omega

end Vocabulary

end RoutingPolicy
