import Mathlib.Data.List.TakeWhile
import RoutingPolicy.Proofs.Text.Blank
import RoutingPolicy.Rule.Token

/-!
# Cutting rules at their tokens

The readers of a rule find a token and go on with the text before it or after it, which they divide
into tokens anew. What they find there is what stood there before, as long as the cut does not go
through a word. `Cut` states that a text is cut at one of its tokens, and everything the readers do
at that token is derived from it.
-/

namespace RoutingPolicy

namespace Text

/-- No word runs across the seam of two texts. -/
def Apart (before after : Text) : Prop :=
  ∀ c ∈ before.getLast?, ∀ d ∈ after.head?, isWordChar c = true → isWordChar d = false

theorem apart_nil_left (after : Text) : Apart [] after := by
  intro c hc
  simp at hc

theorem apart_nil_right (before : Text) : Apart before [] := by
  intro c _ d hd
  simp at hd

theorem apart_cons (before after : Text) {d : Char} (hd : isWordChar d = false) :
    Apart before (d :: after) := by
  intro c _ e he _
  rw [List.head?_cons, Option.mem_some] at he
  rw [← he, hd]

theorem apart_append_singleton (before after : Text) {c : Char} (hc : isWordChar c = false) :
    Apart (before ++ [c]) after := by
  intro e he _ _ hword
  rw [List.getLast?_append, List.getLast?_singleton, Option.some_or, Option.mem_some] at he
  rw [← he, hc] at hword
  exact absurd hword Bool.false_ne_true

/-- Only the last character of the first text matters. -/
theorem Apart.of_suffix {before suffix after : Text} (happart : Apart before after)
    (hsuffix : suffix <:+ before) : Apart suffix after := by
  obtain ⟨start, rfl⟩ := hsuffix
  intro c hc d hd
  refine happart c ?_ d hd
  rw [List.getLast?_append, Option.mem_def.1 hc, Option.some_or, Option.mem_some]

theorem Apart.append_left {before after : Text} (happart : Apart before after)
    (hbefore : before ≠ []) (more : Text) : Apart (more ++ before) after := by
  intro c hc d hd
  rw [List.getLast?_append_of_ne_nil _ hbefore] at hc
  exact happart c hc d hd

theorem Apart.append_right {before after : Text} (happart : Apart before after) (hafter : after ≠ [])
    (more : Text) : Apart before (after ++ more) := by
  intro c hc d hd
  rw [List.head?_append_of_ne_nil _ hafter] at hd
  exact happart c hc d hd

/-- A text that is one word wherever it stands between blanks. -/
def IsWord (word : Text) : Prop := word ≠ [] ∧ ∀ c ∈ word, isWordChar c = true

instance (word : Text) : Decidable (IsWord word) :=
  decidable_of_iff (word ≠ [] ∧ word.all isWordChar) (by simp [IsWord])

/-- A text that is a single token. -/
def IsLexeme (lexeme : Text) : Prop :=
  IsWord lexeme ∨ ∃ c, isDelimiter c = true ∧ lexeme = [c]

theorem isBlank_of_isWordChar {c : Char} (hword : isWordChar c = true) : isBlank c = false := by
  simp only [isWordChar, Bool.and_eq_true, Bool.not_eq_true'] at hword
  exact hword.1

theorem isBlank_of_isDelimiter {c : Char} (hdelimiter : isDelimiter c = true) :
    isBlank c = false := by
  simp only [isDelimiter, Bool.or_eq_true, beq_iff_eq] at hdelimiter
  rcases hdelimiter with (rfl | rfl) | rfl <;> decide

theorem IsWord.not_mem {word : Text} (hword : IsWord word) {c : Char} (hc : isWordChar c = false) :
    c ∉ word := by
  intro hmem
  rw [hword.2 c hmem] at hc
  exact Bool.false_ne_true hc.symm

/-- The word that the scanner takes at a character that is neither blank nor a delimiter. -/
theorem isWord_cons_takeWhile {c : Char} (hblank : ¬isBlank c = true)
    (hdelimiter : ¬isDelimiter c = true) (rest : Text) : IsWord (c :: rest.takeWhile isWordChar) :=
  ⟨List.cons_ne_nil c _, List.forall_mem_cons.2
    ⟨by simp [isWordChar, hblank, hdelimiter], fun _ => List.mem_takeWhile_imp⟩⟩

theorem IsLexeme.ne_nil {lexeme : Text} (hlexeme : IsLexeme lexeme) : lexeme ≠ [] := by
  rcases hlexeme with hword | ⟨c, -, rfl⟩
  · exact hword.1
  · exact List.cons_ne_nil c []

theorem IsLexeme.isBlank_eq_false {lexeme : Text} (hlexeme : IsLexeme lexeme) {c : Char}
    (hc : c ∈ lexeme) : isBlank c = false := by
  rcases hlexeme with hword | ⟨d, hd, rfl⟩
  · exact isBlank_of_isWordChar (hword.2 c hc)
  · rw [List.mem_singleton.1 hc]
    exact isBlank_of_isDelimiter hd

theorem IsLexeme.trimmed {lexeme : Text} (hlexeme : IsLexeme lexeme) : Trimmed lexeme :=
  trimmed_of_forall fun _ => hlexeme.isBlank_eq_false

/-- A word that ends the first text ends at the seam. -/
theorem span_append_of_ends {c : Char} {rest after : Text} (happart : Apart (c :: rest) after)
    (hc : isWordChar c = true) (hrest : rest.dropWhile isWordChar = []) :
    (rest ++ after).takeWhile isWordChar = rest ∧ (rest ++ after).dropWhile isWordChar = after := by
  have hall : ∀ d ∈ rest, isWordChar d = true := List.dropWhile_eq_nil_iff.1 hrest
  rw [List.takeWhile_append_of_pos hall, List.dropWhile_append_of_pos hall]
  cases after with
  | nil => exact ⟨List.append_nil rest, rfl⟩
  | cons d after =>
    have hword : ∀ e ∈ c :: rest, isWordChar e = true := List.forall_mem_cons.2 ⟨hc, hall⟩
    have hd : ¬isWordChar d = true := by
      have hlast := List.getLast?_eq_some_getLast (List.cons_ne_nil c rest)
      rw [happart _ hlast d rfl (hword _ (List.getLast_mem _))]
      exact Bool.false_ne_true
    rw [List.takeWhile_cons_of_neg hd, List.dropWhile_cons_of_neg hd, List.append_nil]
    exact ⟨rfl, rfl⟩

/-- A run of characters that ends inside the first text is not touched by the second one. -/
theorem span_append_of_ne {p : Char → Bool} {rest : Text} (hrest : rest.dropWhile p ≠ [])
    (after : Text) : (rest ++ after).takeWhile p = rest.takeWhile p ∧
      (rest ++ after).dropWhile p = rest.dropWhile p ++ after := by
  have hlength : (rest.takeWhile p).length ≠ rest.length := by
    intro heq
    have hsum := congrArg List.length (List.takeWhile_append_dropWhile (p := p) (l := rest))
    rw [List.length_append, heq] at hsum
    exact hrest (List.length_eq_zero_iff.1 (by omega))
  constructor
  · rw [List.takeWhile_append, if_neg hlength]
  · rw [List.dropWhile_append, if_neg (by simpa [List.isEmpty_iff] using hrest)]

end Text

namespace Token

open Text

/-! ### Tokens of the two parts of a text -/

theorem scan_cons_word (start : Nat) {c : Char} (rest : Text) (hblank : ¬isBlank c = true)
    (hdelimiter : ¬isDelimiter c = true) :
    scan start (c :: rest) = ⟨c :: rest.takeWhile isWordChar, start⟩ ::
      scan (start + byteSize (c :: rest.takeWhile isWordChar)) (rest.dropWhile isWordChar) := by
  rw [scan, if_neg hblank, if_neg hdelimiter]

theorem scan_append (start : Nat) {before after : Text} (happart : Apart before after) :
    scan start (before ++ after) =
      scan start before ++ scan (start + byteSize before) after := by
  fun_induction scan start before with
  | case1 start => simp
  | case2 start c rest hblank ih =>
    rw [List.cons_append, scan, if_pos hblank, ih (happart.of_suffix (List.suffix_cons c rest)),
      byteSize_cons, Nat.add_assoc]
  | case3 start c rest hblank hdelimiter ih =>
    rw [List.cons_append, scan, if_neg hblank, if_pos hdelimiter,
      ih (happart.of_suffix (List.suffix_cons c rest)), byteSize_cons, Nat.add_assoc,
      List.cons_append]
  | case4 start c rest hblank hdelimiter word ih =>
    have hsuffix : rest.dropWhile isWordChar <:+ c :: rest :=
      (List.dropWhile_suffix isWordChar).trans (List.suffix_cons c rest)
    have hc : isWordChar c = true :=
      (isWord_cons_takeWhile hblank hdelimiter rest).2 c List.mem_cons_self
    rw [List.cons_append, scan_cons_word start _ hblank hdelimiter]
    by_cases hrest : rest.dropWhile isWordChar = []
    · -- the first text ends in this word, so the second one does not go on with it
      obtain ⟨htake, hdrop⟩ := span_append_of_ends happart hc hrest
      have hword : word = c :: rest := by
        rw [← List.takeWhile_append_dropWhile (p := isWordChar) (l := rest), hrest,
          List.append_nil]
      rw [htake, hdrop, hrest, scan, hword]
      rfl
    · obtain ⟨htake, hdrop⟩ := span_append_of_ne hrest after
      have hbytes : byteSize (c :: rest) =
          byteSize word + byteSize (rest.dropWhile isWordChar) := by
        rw [← byteSize_append, List.cons_append, List.takeWhile_append_dropWhile]
      rw [htake, hdrop, ih (happart.of_suffix hsuffix), hbytes, Nat.add_assoc]
      rfl

/-- The tokens of a text do not depend on where the text starts. -/
theorem map_text_scan (start other : Nat) (text : Text) :
    (scan start text).map Token.text = (scan other text).map Token.text := by
  fun_induction scan start text generalizing other with
  | case1 start => rw [scan]
  | case2 start c rest hblank ih => rw [scan, if_pos hblank, ih]
  | case3 start c rest hblank hdelimiter ih =>
    rw [scan, if_neg hblank, if_pos hdelimiter, List.map_cons, List.map_cons, ih]
  | case4 start c rest hblank hdelimiter word ih =>
    rw [scan, if_neg hblank, if_neg hdelimiter, List.map_cons, List.map_cons, ih]

@[simp] theorem scan_nil (start : Nat) : scan start [] = [] := by
  rw [scan]

theorem mem_of_last? {keyword : Keyword} {tokens : List Token} {token : Token}
    (hlast : last? keyword tokens = some token) : token ∈ tokens :=
  List.mem_of_mem_filter (List.mem_of_getLast? hlast)

theorem kind_of_last? {keyword : Keyword} {tokens : List Token} {token : Token}
    (hlast : last? keyword tokens = some token) : token.kind = .keyword keyword := by
  have hmem : token ∈ tokens.filter (isKeyword keyword) := List.mem_of_getLast? hlast
  have hkeyword : token.isKeyword keyword = true := List.of_mem_filter hmem
  exact beq_iff_eq.1 hkeyword

/-- The last token of a keyword, when the keyword does not occur behind it. -/
theorem last?_append_cons {keyword : Keyword} {token : Token} {before after : List Token}
    (htoken : token.isKeyword keyword = true)
    (hafter : ∀ later ∈ after, later.isKeyword keyword = false) :
    last? keyword (before ++ token :: after) = some token := by
  have hnil : after.filter (isKeyword keyword) = [] :=
    List.filter_eq_nil_iff.2 fun later hlater => by simp [hafter later hlater]
  rw [last?, List.filter_append, List.filter_cons_of_pos htoken, hnil, List.getLast?_append,
    List.getLast?_singleton, Option.some_or]

/-- What does not have the keyword can follow. -/
theorem last?_append_of_forall {keyword : Keyword} {more : List Token}
    (hmore : ∀ token ∈ more, token.isKeyword keyword = false) (tokens : List Token) :
    last? keyword (tokens ++ more) = last? keyword tokens := by
  have hnil : more.filter (isKeyword keyword) = [] :=
    List.filter_eq_nil_iff.2 fun token htoken => by simp [hmore token htoken]
  rw [last?, List.filter_append, hnil, List.append_nil, last?]

theorem scan_lexeme (start : Nat) {lexeme : Text} (hlexeme : IsLexeme lexeme) :
    scan start lexeme = [⟨lexeme, start⟩] := by
  rcases hlexeme with ⟨hne, hall⟩ | ⟨c, hdelimiter, rfl⟩
  · cases lexeme with
    | nil => exact absurd rfl hne
    | cons c rest =>
      have hc := hall c List.mem_cons_self
      have hrest : ∀ d ∈ rest, isWordChar d = true := fun d hd => hall d (List.mem_cons_of_mem c hd)
      simp only [isWordChar, Bool.and_eq_true, Bool.not_eq_true'] at hc
      rw [scan, if_neg (by simp [hc.1]), if_neg (by simp [hc.2])]
      simp only [List.takeWhile_eq_self_iff.2 hrest, List.dropWhile_eq_nil_iff.2 hrest, scan]
  · rw [scan, if_neg (by simp [isBlank_of_isDelimiter hdelimiter]), if_pos hdelimiter, scan]

theorem scan_blanks (start : Nat) {blanks : Text} (hblanks : ∀ c ∈ blanks, isBlank c = true) :
    scan start blanks = [] := by
  induction blanks generalizing start with
  | nil => rw [scan]
  | cons c blanks ih =>
    rw [scan, if_pos (hblanks c List.mem_cons_self)]
    exact ih _ fun d hd => hblanks d (List.mem_cons_of_mem c hd)

end Token

/-! ### The texts of the tokens -/

open Text

/-- The tokens of a rule without their positions. -/
def lexemes (text : Text) : List Text := (tokenize text).map Token.text

theorem map_text_scan_eq_lexemes (start : Nat) (text : Text) :
    (Token.scan start text).map Token.text = lexemes text :=
  Token.map_text_scan start 0 text

theorem lexemes_append {before after : Text} (happart : Apart before after) :
    lexemes (before ++ after) = lexemes before ++ lexemes after := by
  rw [lexemes, tokenize, Token.scan_append 0 happart, List.map_append, map_text_scan_eq_lexemes,
    map_text_scan_eq_lexemes]

theorem lexemes_of_isLexeme {lexeme : Text} (hlexeme : IsLexeme lexeme) :
    lexemes lexeme = [lexeme] := by
  rw [lexemes, tokenize, Token.scan_lexeme 0 hlexeme, List.map_singleton]

@[simp] theorem tokenize_nil : tokenize [] = [] := Token.scan_nil 0

@[simp] theorem lexemes_nil : lexemes [] = [] := by
  rw [lexemes, tokenize_nil, List.map_nil]

theorem lexemes_cons_space (text : Text) : lexemes (' ' :: text) = lexemes text := by
  have happart : Apart [' '] text := apart_append_singleton [] text (by decide)
  rw [← List.singleton_append, lexemes_append happart, lexemes, tokenize,
    Token.scan_blanks 0 (List.forall_mem_singleton.2 rfl), List.map_nil, List.nil_append]

theorem lexemes_append_space (text : Text) : lexemes (text ++ [' ']) = lexemes text := by
  rw [lexemes_append (apart_cons text [] (by decide)), lexemes_cons_space, lexemes_nil,
    List.append_nil]

/-- A blank separates tokens. -/
theorem lexemes_separated (first second : Text) :
    lexemes (first ++ [' '] ++ second) = lexemes first ++ lexemes second := by
  rw [lexemes_append (apart_append_singleton first second (by decide)), lexemes_append_space]

/-- Whatever is not blank belongs to some token. -/
theorem lexemes_ne_nil {text : Text} {c : Char} (hmem : c ∈ text) (hc : isBlank c = false) :
    lexemes text ≠ [] := by
  rw [lexemes, tokenize, ne_eq, List.map_eq_nil_iff]
  fun_induction Token.scan 0 text with
  | case1 start => simp at hmem
  | case2 start d rest hblank ih =>
    rcases List.mem_cons.1 hmem with rfl | hrest
    · exact absurd hblank (by simp [hc])
    · exact ih hrest
  | case3 start d rest hblank hdelimiter ih => exact List.cons_ne_nil _ _
  | case4 start d rest hblank hdelimiter word ih => exact List.cons_ne_nil _ _

theorem exists_not_blank_of_lexemes_ne_nil {text : Text} (hlexemes : lexemes text ≠ []) :
    ∃ c ∈ text, isBlank c = false := by
  by_contra hnot
  apply hlexemes
  rw [lexemes, tokenize, Token.scan_blanks, List.map_nil]
  intro c hc
  by_contra hblank
  exact hnot ⟨c, hc, Bool.of_not_eq_true hblank⟩

/-- A character that is a token of its own occurs as often among the tokens as in the text. -/
theorem count_lexemes {c : Char} (hc : isDelimiter c = true) (text : Text) :
    (lexemes text).count [c] = text.count c := by
  have hblank : isBlank c = false := isBlank_of_isDelimiter hc
  have hword : isWordChar c = false := by simp [isWordChar, hc]
  rw [lexemes, tokenize]
  fun_induction Token.scan 0 text with
  | case1 start => rfl
  | case2 start d rest hd ih =>
    have hne : d ≠ c := by
      rintro rfl
      exact absurd hd (by simp [hblank])
    rw [ih, List.count_cons_of_ne hne]
  | case3 start d rest _ hd ih =>
    rw [List.map_cons, List.count_cons, List.count_cons, ih]
    congr 1
    simp
  | case4 start d rest hd hdelimiter word ih =>
    have hnot : c ∉ word := (isWord_cons_takeWhile hd hdelimiter rest).not_mem hword
    have hne : word ≠ [c] := by
      intro heq
      exact hnot (heq ▸ List.mem_singleton_self c)
    have hsplit : d :: rest = word ++ rest.dropWhile isWordChar := by
      rw [List.cons_append, List.takeWhile_append_dropWhile]
    rw [List.map_cons, List.count_cons_of_ne hne, ih, hsplit, List.count_append,
      List.count_eq_zero.2 hnot, Nat.zero_add]

/-! ### Keywords among the tokens -/

namespace Token.Kind

@[simp] theorem ofText_name (keyword : Keyword) : ofText keyword.name = .keyword keyword := by
  cases keyword <;> decide

/-- A token is a delimiter, a keyword or a word. -/
theorem ofText_cases (text : Text) :
    (text = ['{'] ∧ ofText text = .openBrace) ∨ (text = ['}'] ∧ ofText text = .closeBrace) ∨
      (text = [';'] ∧ ofText text = .semicolon) ∨
      (text ≠ ['{'] ∧ text ≠ ['}'] ∧ text ≠ [';'] ∧
        ofText text = ((Keyword.ofWord? text).map keyword).getD .word) := by
  by_cases hopen : text = ['{']
  · exact .inl ⟨hopen, if_pos hopen⟩
  by_cases hclose : text = ['}']
  · exact .inr (.inl ⟨hclose, by rw [ofText, if_neg hopen, if_pos hclose]⟩)
  by_cases hsemicolon : text = [';']
  · exact .inr (.inr (.inl ⟨hsemicolon,
      by rw [ofText, if_neg hopen, if_neg hclose, if_pos hsemicolon]⟩))
  refine .inr (.inr (.inr ⟨hopen, hclose, hsemicolon, ?_⟩))
  rw [ofText, if_neg hopen, if_neg hclose, if_neg hsemicolon]
  cases Keyword.ofWord? text <;> rfl

theorem ofText_word {word : Text} (hword : IsWord word) (hkeyword : Keyword.ofWord? word = none) :
    ofText word = .word := by
  have hne : ∀ c, isDelimiter c = true → word ≠ [c] := by
    rintro c hc rfl
    have := hword.2 c List.mem_cons_self
    simp [isWordChar, hc] at this
  rw [ofText, if_neg (hne _ (by decide)), if_neg (hne _ (by decide)), if_neg (hne _ (by decide)),
    hkeyword]

theorem ofText_eq_openBrace_iff {text : Text} : ofText text = .openBrace ↔ text = ['{'] := by
  obtain ⟨rfl, hkind⟩ | ⟨rfl, hkind⟩ | ⟨rfl, hkind⟩ | ⟨hopen, -, -, hkind⟩ := ofText_cases text
  · simp [hkind]
  · simp [hkind]
  · simp [hkind]
  · cases hword : Keyword.ofWord? text <;> simp [hkind, hword, hopen]

theorem ofText_eq_closeBrace_iff {text : Text} : ofText text = .closeBrace ↔ text = ['}'] := by
  obtain ⟨rfl, hkind⟩ | ⟨rfl, hkind⟩ | ⟨rfl, hkind⟩ | ⟨-, hclose, -, hkind⟩ := ofText_cases text
  · simp [hkind]
  · simp [hkind]
  · simp [hkind]
  · cases hword : Keyword.ofWord? text <;> simp [hkind, hword, hclose]

end Token.Kind

/-- A word with a character that no keyword has is no keyword. -/
theorem Keyword.ofWord?_eq_none {word : Text} {c : Char} (hmem : c ∈ word)
    (hc : ∀ keyword : Keyword, c.toUpper ∉ keyword.name.map Char.toUpper) :
    Keyword.ofWord? word = none := by
  cases hword : Keyword.ofWord? word with
  | none => rfl
  | some keyword =>
    rw [Keyword.ofWord?_eq_some_iff, sameLetters, beq_iff_eq] at hword
    exact absurd (hword ▸ List.mem_map_of_mem hmem) (hc keyword)

theorem containsKeyword_eq_any (text : Text) (keyword : Keyword) :
    containsKeyword text keyword =
      (lexemes text).any fun lexeme => Token.Kind.ofText lexeme == .keyword keyword := by
  rw [containsKeyword, lexemes, List.any_map]
  rfl

theorem kind_ne_of_mem_scan {start : Nat} {text : Text} {keyword : Keyword} {token : Token}
    (htext : containsKeyword text keyword = false) (htoken : token ∈ Token.scan start text) :
    token.kind ≠ .keyword keyword := by
  rw [containsKeyword_eq_any, ← map_text_scan_eq_lexemes start, List.any_eq_false] at htext
  intro hkind
  refine htext token.text (List.mem_map_of_mem htoken) ?_
  rw [← Token.kind, hkind, beq_self_eq_true]

theorem isKeyword_of_mem_scan {start : Nat} {text : Text} {keyword : Keyword} {token : Token}
    (htext : containsKeyword text keyword = false) (htoken : token ∈ Token.scan start text) :
    token.isKeyword keyword = false :=
  beq_false_of_ne (kind_ne_of_mem_scan htext htoken)

theorem containsKeyword_cons_space (text : Text) (keyword : Keyword) :
    containsKeyword (' ' :: text) keyword = containsKeyword text keyword := by
  rw [containsKeyword_eq_any, containsKeyword_eq_any, lexemes_cons_space]

theorem containsKeyword_append {before after : Text} (happart : Apart before after)
    (keyword : Keyword) : containsKeyword (before ++ after) keyword =
      (containsKeyword before keyword || containsKeyword after keyword) := by
  simp only [containsKeyword_eq_any, lexemes_append happart, List.any_append]

/-- A word that is no keyword. -/
structure PlainWord (word : Text) : Prop where
  isWord : IsWord word
  ofWord?_eq_none : Keyword.ofWord? word = none

instance (word : Text) : Decidable (PlainWord word) :=
  decidable_of_iff (IsWord word ∧ Keyword.ofWord? word = none)
    ⟨fun hword => ⟨hword.1, hword.2⟩, fun hword => ⟨hword.isWord, hword.ofWord?_eq_none⟩⟩

theorem PlainWord.kind_eq {word : Text} (hword : PlainWord word) :
    Token.Kind.ofText word = .word :=
  Token.Kind.ofText_word hword.isWord hword.ofWord?_eq_none

theorem Text.IsLexeme.plainWord {lexeme : Text} (hlexeme : IsLexeme lexeme)
    (hkind : Token.Kind.ofText lexeme = .word) : PlainWord lexeme := by
  rcases hlexeme with hword | ⟨c, hdelimiter, rfl⟩
  · refine ⟨hword, ?_⟩
    obtain ⟨-, hother⟩ | ⟨-, hother⟩ | ⟨-, hother⟩ | ⟨-, -, -, hother⟩ :=
      Token.Kind.ofText_cases lexeme
    · simp [hkind] at hother
    · simp [hkind] at hother
    · simp [hkind] at hother
    · cases hkeyword : Keyword.ofWord? lexeme with
      | none => rfl
      | some keyword => simp [hkind, hkeyword] at hother
  · -- a delimiter is a token of another kind
    simp only [isDelimiter, Bool.or_eq_true, beq_iff_eq] at hdelimiter
    rcases hdelimiter with (rfl | rfl) | rfl <;> exact absurd hkind (by decide)

theorem PlainWord.containsKeyword_eq_false {word : Text} (hword : PlainWord word)
    (keyword : Keyword) : containsKeyword word keyword = false := by
  rw [containsKeyword_eq_any, lexemes_of_isLexeme (.inl hword.isWord), List.any_cons, List.any_nil,
    hword.kind_eq]
  rfl

theorem isWord_name (keyword : Keyword) : IsWord keyword.name := by
  cases keyword <;> decide

theorem Token.isKeyword_name (keyword : Keyword) (start : Nat) :
    isKeyword keyword ⟨keyword.name, start⟩ = true := by
  simp [isKeyword, kind]

theorem containsKeyword_name_self (keyword : Keyword) :
    containsKeyword keyword.name keyword = true := by
  rw [containsKeyword_eq_any, lexemes_of_isLexeme (.inl (isWord_name keyword)), List.any_cons,
    Token.Kind.ofText_name, beq_self_eq_true, Bool.true_or]

theorem containsKeyword_name {keyword other : Keyword} (hne : other ≠ keyword) :
    containsKeyword keyword.name other = false := by
  rw [containsKeyword_eq_any, lexemes_of_isLexeme (.inl (isWord_name keyword)), List.any_cons,
    List.any_nil, Token.Kind.ofText_name]
  simpa using hne.symm

/-- Whatever spells a keyword is a word. -/
theorem Keyword.isWord_of_ofWord? {word : Text} {keyword : Keyword}
    (hword : Keyword.ofWord? word = some keyword) : IsWord word := by
  constructor
  · rintro rfl
    exact absurd hword (by cases keyword <;> decide)
  · intro c hc
    by_contra hnot
    have hnone : Keyword.ofWord? word = none := by
      refine Keyword.ofWord?_eq_none hc fun other hmem => hnot ?_
      have hcapitals : other.name.map Char.toUpper = other.name := by cases other <;> decide
      by_cases hupper : c.toUpper = c
      · rw [← hupper]
        rw [hcapitals] at hmem
        exact (isWord_name other).2 _ hmem
      · -- only letters have another form in upper case
        by_contra hseparator
        refine hupper ?_
        rw [isWordChar, Bool.and_eq_true, not_and_or] at hseparator
        simp only [Bool.not_eq_true', Bool.not_eq_false] at hseparator
        rcases hseparator with hblank | hdelimiter
        · exact toUpper_of_isBlank hblank
        · simp only [isDelimiter, Bool.or_eq_true, beq_iff_eq] at hdelimiter
          rcases hdelimiter with (rfl | rfl) | rfl <;> rfl
    rw [hword] at hnone
    exact absurd hnone (Option.some_ne_none keyword)

theorem Token.Kind.ofText_eq_keyword_iff {word : Text} {keyword : Keyword} :
    Token.Kind.ofText word = .keyword keyword ↔ Keyword.ofWord? word = some keyword := by
  constructor
  · intro hkind
    obtain ⟨-, hother⟩ | ⟨-, hother⟩ | ⟨-, hother⟩ | ⟨-, -, -, hother⟩ :=
      Token.Kind.ofText_cases word
    · simp [hkind] at hother
    · simp [hkind] at hother
    · simp [hkind] at hother
    · cases hword : Keyword.ofWord? word with
      | none => simp [hkind, hword] at hother
      | some found => simpa [hkind, hword] using hother.symm
  · intro hword
    have hisWord := Keyword.isWord_of_ofWord? hword
    have hne : ∀ c, isDelimiter c = true → word ≠ [c] := by
      rintro c hc rfl
      have hmem := hisWord.2 c List.mem_cons_self
      simp [isWordChar, hc] at hmem
    rw [Token.Kind.ofText, if_neg (hne _ (by decide)), if_neg (hne _ (by decide)),
      if_neg (hne _ (by decide)), hword]

theorem Keyword.ofWord?_name (keyword : Keyword) :
    Keyword.ofWord? keyword.name = some keyword :=
  Token.Kind.ofText_eq_keyword_iff.1 (Token.Kind.ofText_name keyword)

theorem containsKeyword_eq_false_iff {text : Text} {keyword : Keyword} :
    containsKeyword text keyword = false ↔
      ∀ word ∈ lexemes text, Keyword.ofWord? word ≠ some keyword := by
  rw [containsKeyword_eq_any, List.any_eq_false]
  simp only [beq_iff_eq, Token.Kind.ofText_eq_keyword_iff, ne_eq]

/-! ### Texts cut at a token -/

/-- A text that is cut into one of its tokens and what stands around it. -/
structure Cut (before lexeme after : Text) : Prop where
  isLexeme : IsLexeme lexeme
  left : Apart before lexeme
  right : Apart lexeme after

theorem cut_delimiter {c : Char} (hc : isDelimiter c = true) (before after : Text) :
    Cut before [c] after where
  isLexeme := .inr ⟨c, hc, rfl⟩
  left := apart_cons before [] (by simp [isWordChar, hc])
  right := apart_append_singleton [] after (by simp [isWordChar, hc])

namespace Cut

variable {before lexeme after : Text} {keyword : Keyword}

theorem scan_eq (hcut : Cut before lexeme after) (start : Nat) :
    Token.scan start (before ++ lexeme ++ after) = Token.scan start before ++
      ⟨lexeme, start + byteSize before⟩ ::
        Token.scan (start + byteSize (before ++ lexeme)) after := by
  have hright : Apart (before ++ lexeme) after := hcut.right.append_left hcut.isLexeme.ne_nil before
  rw [Token.scan_append start hright, Token.scan_append start hcut.left,
    Token.scan_lexeme _ hcut.isLexeme, List.append_assoc, List.singleton_append]

theorem tokenize_eq (hcut : Cut before lexeme after) :
    tokenize (before ++ lexeme ++ after) = tokenize before ++
      ⟨lexeme, byteSize before⟩ :: Token.scan (byteSize (before ++ lexeme)) after := by
  rw [tokenize, hcut.scan_eq, Nat.zero_add, Nat.zero_add, tokenize]

theorem first?_eq (hcut : Cut before lexeme after)
    (hkind : Token.Kind.ofText lexeme = .keyword keyword)
    (hbefore : containsKeyword before keyword = false) :
    Token.first? keyword (tokenize (before ++ lexeme ++ after)) =
      some ⟨lexeme, byteSize before⟩ := by
  have hnone : (tokenize before).find? (Token.isKeyword keyword) = none :=
    List.find?_eq_none.2 fun token htoken => by simp [isKeyword_of_mem_scan hbefore htoken]
  rw [Token.first?, hcut.tokenize_eq, List.find?_append, hnone, Option.none_or,
    List.find?_cons_of_pos (by simp [Token.isKeyword, Token.kind, hkind])]

theorem last?_eq (hcut : Cut before lexeme after)
    (hkind : Token.Kind.ofText lexeme = .keyword keyword)
    (hafter : containsKeyword after keyword = false) :
    Token.last? keyword (tokenize (before ++ lexeme ++ after)) =
      some ⟨lexeme, byteSize before⟩ := by
  rw [hcut.tokenize_eq]
  exact Token.last?_append_cons (by simp [Token.isKeyword, Token.kind, hkind]) fun _ hlater =>
    isKeyword_of_mem_scan hafter hlater

end Cut

theorem takeBytes_cut (before lexeme after : Text) :
    takeBytes (byteSize before) (before ++ lexeme ++ after) = before := by
  rw [List.append_assoc, takeBytes_byteSize]

theorem takeBytes_add (first second after : Text) :
    takeBytes (byteSize first + byteSize second) (first ++ (second ++ after)) =
      first ++ second := by
  rw [← byteSize_append, ← List.append_assoc, takeBytes_byteSize]

theorem dropBytes_cut (before lexeme after : Text) :
    dropBytes (Token.stop ⟨lexeme, byteSize before⟩) (before ++ lexeme ++ after) = after := by
  rw [Token.stop, ← byteSize_append, dropBytes_byteSize]

end RoutingPolicy
