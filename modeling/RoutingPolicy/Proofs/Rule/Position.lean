import RoutingPolicy.Proofs.Rule.Token

/-!
# Where tokens stand

Each token of a text marks a cut: the tokens in front of it are those of the text before it, and the
tokens behind it are those of the text after it. A text that is moved keeps its tokens, each moved by
the same number of bytes.
-/

namespace RoutingPolicy

open Text

namespace Text

theorem takeBytes_byteSize_add (first second : Text) (n : Nat) :
    takeBytes (byteSize first + n) (first ++ second) = first ++ takeBytes n second := by
  induction first with
  | nil => simp
  | cons c first ih =>
    have hsize : 0 < c.utf8Size := c.utf8Size_pos
    obtain ⟨m, hm⟩ : ∃ m, byteSize (c :: first) + n = m + 1 :=
      ⟨byteSize (c :: first) + n - 1, by simp only [byteSize_cons]; omega⟩
    have hrest : m + 1 - c.utf8Size = byteSize first + n := by
      simp only [byteSize_cons] at hm
      omega
    rw [hm, List.cons_append, takeBytes, hrest, ih, List.cons_append]

theorem dropBytes_byteSize_add (first second : Text) (n : Nat) :
    dropBytes (byteSize first + n) (first ++ second) = dropBytes n second := by
  have hsplit := takeBytes_append_dropBytes (byteSize first + n) (first ++ second)
  rw [takeBytes_byteSize_add, List.append_assoc] at hsplit
  have hrest := List.append_cancel_left hsplit
  exact List.append_cancel_left (hrest.trans (takeBytes_append_dropBytes n second).symm)

theorem Apart.of_append_right {before lexeme after : Text}
    (happart : Apart before (lexeme ++ after)) : Apart before lexeme := by
  intro c hc d hd
  apply happart c hc d
  rw [Option.mem_def, List.head?_append, Option.mem_def.1 hd, Option.some_or]

theorem Apart.append {first before lexeme : Text} (hfirst : Apart first (before ++ lexeme))
    (hbefore : Apart before lexeme) : Apart (first ++ before) lexeme := by
  by_cases hne : before = []
  · subst hne
    rwa [List.append_nil]
  · exact hbefore.append_left hne first

theorem apart_dropWhile (before rest : Text) : Apart before (rest.dropWhile isWordChar) := by
  intro c _ d hd _
  have hhead := List.head?_dropWhile_not isWordChar rest
  rwa [Option.mem_def.1 hd] at hhead

theorem isWordChar_iff {c : Char} :
    isWordChar c = true ↔ isBlank c = false ∧ isDelimiter c = false := by
  simp [isWordChar]

theorem isWordChar_eq_false_iff {c : Char} :
    isWordChar c = false ↔ isBlank c = true ∨ isDelimiter c = true := by
  simp only [isWordChar, Bool.and_eq_false_iff, Bool.not_eq_false']

/-- It is enough that one of the two texts has no word at the seam. -/
theorem apart_iff {before after : Text} : Apart before after ↔
    (∀ c ∈ before.getLast?, isWordChar c = false) ∨ ∀ d ∈ after.head?, isWordChar d = false := by
  constructor
  · intro happart
    by_cases hbefore : ∀ c ∈ before.getLast?, isWordChar c = false
    · exact .inl hbefore
    · right
      intro d hd
      simp only [not_forall, Bool.not_eq_false] at hbefore
      obtain ⟨c, hc, hword⟩ := hbefore
      exact happart c hc d hd hword
  · rintro (hbefore | hafter) c hc d hd hword
    · rw [hbefore c hc] at hword
      exact absurd hword Bool.false_ne_true
    · exact hafter d hd

theorem Apart.left_of_isWord {before word : Text} (happart : Apart before word)
    (hword : IsWord word) : ∀ c ∈ before.getLast?, isWordChar c = false := by
  rcases apart_iff.1 happart with hbefore | hhead
  · exact hbefore
  · have hfirst := List.head?_eq_some_head hword.1
    have hnot := hhead _ hfirst
    rw [hword.2 _ (List.head_mem hword.1)] at hnot
    exact absurd hnot.symm Bool.false_ne_true

theorem Apart.right_of_isWord {word after : Text} (happart : Apart word after)
    (hword : IsWord word) : ∀ d ∈ after.head?, isWordChar d = false := by
  rcases apart_iff.1 happart with hlast | hafter
  · have hfound := List.getLast?_eq_some_getLast hword.1
    have hnot := hlast _ hfound
    rw [hword.2 _ (List.getLast_mem hword.1)] at hnot
    exact absurd hnot.symm Bool.false_ne_true
  · exact hafter

theorem byteSize_pos {text : Text} (hne : text ≠ []) : 0 < byteSize text := by
  apply Nat.pos_of_ne_zero
  intro hzero
  exact hne (eq_nil_of_byteSize_eq_zero hzero)

end Text

/-! ### Tokens as cuts -/

/-- Every cut is at a token of the text. -/
theorem Cut.mem_tokenize {before lexeme after : Text} (hcut : Cut before lexeme after) :
    ⟨lexeme, byteSize before⟩ ∈ tokenize (before ++ lexeme ++ after) := by
  rw [hcut.tokenize_eq]
  exact List.mem_append_right _ List.mem_cons_self

/-- Every character that is not blank is in a token. -/
theorem exists_cut_around {c : Char} (hc : isBlank c = false) (before after : Text) :
    ∃ front left right behind, Cut front (left ++ c :: right) behind ∧
      before = front ++ left ∧ after = right ++ behind := by
  by_cases hdelimiter : isDelimiter c = true
  · exact ⟨before, [], [], after, cut_delimiter hdelimiter before after, by simp, rfl⟩
  · have hword : isWordChar c = true := by simp [isWordChar, hc, hdelimiter]
    refine ⟨before.rdropWhile isWordChar, before.rtakeWhile isWordChar, after.takeWhile isWordChar,
      after.dropWhile isWordChar, ⟨.inl ⟨by simp, ?_⟩, ?_, apart_dropWhile _ after⟩,
      List.rdropWhile_append_rtakeWhile.symm, List.takeWhile_append_dropWhile.symm⟩
    · intro d hd
      rcases List.mem_append.1 hd with hleft | hright
      · exact List.mem_rtakeWhile_imp hleft
      · rcases List.mem_cons.1 hright with rfl | hright
        · exact hword
        · exact List.mem_takeWhile_imp hright
    · apply apart_iff.2
      left
      intro d hd
      have hne := List.ne_nil_of_mem (List.mem_of_getLast? hd)
      rw [List.getLast?_eq_some_getLast hne, Option.mem_some] at hd
      rw [← hd]
      exact Bool.of_not_eq_true (List.rdropWhile_last_not isWordChar before hne)

namespace Token

/-- Wherever the tokens of a text are divided, the text is cut at the token in the middle. -/
theorem exists_cut_of_scan_eq {start : Nat} {text : Text} {earlier later : List Token}
    {token : Token} (htokens : scan start text = earlier ++ token :: later) :
    ∃ before after, Cut before token.text after ∧ text = before ++ token.text ++ after ∧
      token.start = start + byteSize before ∧
      scan (start + byteSize (before ++ token.text)) after = later := by
  fun_induction scan start text generalizing earlier with
  | case1 start => simp at htokens
  | case2 start c rest hblank ih =>
    obtain ⟨before, after, hcut, rfl, hstart, hlater⟩ := ih htokens
    have hword : isWordChar c = false := by simp [isWordChar, hblank]
    refine ⟨c :: before, after, ⟨hcut.isLexeme, ?_, hcut.right⟩, rfl, ?_, ?_⟩
    · exact Apart.append (apart_append_singleton [] _ hword) hcut.left
    · rw [hstart, byteSize_cons, Nat.add_assoc]
    · rw [← hlater, List.cons_append, byteSize_cons, Nat.add_assoc]
  | case3 start c rest hblank hdelimiter ih =>
    have hword : isWordChar c = false := by simp [isWordChar, hdelimiter]
    cases earlier with
    | nil =>
      obtain ⟨rfl, rfl⟩ := List.cons.inj htokens
      exact ⟨[], rest, cut_delimiter hdelimiter [] rest, rfl, rfl, rfl⟩
    | cons first earlier =>
      obtain ⟨-, htokens⟩ := List.cons.inj htokens
      obtain ⟨before, after, hcut, rfl, hstart, hlater⟩ := ih htokens
      refine ⟨c :: before, after, ⟨hcut.isLexeme, ?_, hcut.right⟩, rfl, ?_, ?_⟩
      · exact Apart.append (apart_append_singleton [] _ hword) hcut.left
      · rw [hstart, byteSize_cons, Nat.add_assoc]
      · rw [← hlater, List.cons_append, byteSize_cons, Nat.add_assoc]
  | case4 start c rest hblank hdelimiter word =>
    rename_i ih
    have hsplit : c :: rest = word ++ rest.dropWhile isWordChar := by
      rw [List.cons_append, List.takeWhile_append_dropWhile]
    cases earlier with
    | nil =>
      obtain ⟨rfl, rfl⟩ := List.cons.inj htokens
      exact ⟨[], rest.dropWhile isWordChar, ⟨.inl (isWord_cons_takeWhile hblank hdelimiter rest),
        apart_nil_left _, apart_dropWhile _ rest⟩, hsplit, rfl, rfl⟩
    | cons first earlier =>
      obtain ⟨-, htokens⟩ := List.cons.inj htokens
      obtain ⟨before, after, hcut, hrest, hstart, hlater⟩ := ih htokens
      have hword : Apart word (before ++ token.text) := by
        apply Apart.of_append_right
        rw [← hrest]
        exact apart_dropWhile word rest
      refine ⟨word ++ before, after, ⟨hcut.isLexeme, hword.append hcut.left, hcut.right⟩,
        ?_, ?_, ?_⟩
      · rw [hsplit, hrest, List.append_assoc, List.append_assoc, List.append_assoc]
      · rw [hstart, byteSize_append, Nat.add_assoc]
      · rw [← hlater, List.append_assoc, byteSize_append, Nat.add_assoc]

theorem exists_cut_of_mem_scan {start : Nat} {text : Text} {token : Token}
    (htoken : token ∈ scan start text) :
    ∃ before after, Cut before token.text after ∧ text = before ++ token.text ++ after ∧
      token.start = start + byteSize before := by
  obtain ⟨earlier, later, htokens⟩ := List.append_of_mem htoken
  obtain ⟨before, after, hcut, htext, hstart, -⟩ := exists_cut_of_scan_eq htokens
  exact ⟨before, after, hcut, htext, hstart⟩

theorem isLexeme_of_mem_scan {start : Nat} {text : Text} {token : Token}
    (htoken : token ∈ scan start text) : IsLexeme token.text := by
  obtain ⟨before, after, hcut, -⟩ := exists_cut_of_mem_scan htoken
  exact hcut.isLexeme

theorem start_lt_stop {start : Nat} {text : Text} {token : Token} (htoken : token ∈ scan start text) :
    token.start < token.stop := by
  have hpos := byteSize_pos (isLexeme_of_mem_scan htoken).ne_nil
  rw [stop]
  omega

theorem start_le_of_mem_scan {start : Nat} {text : Text} {token : Token}
    (htoken : token ∈ scan start text) : start ≤ token.start := by
  obtain ⟨before, after, -, -, hstart⟩ := exists_cut_of_mem_scan htoken
  omega

theorem stop_le_of_mem_scan {start : Nat} {text : Text} {token : Token}
    (htoken : token ∈ scan start text) : token.stop ≤ start + byteSize text := by
  obtain ⟨before, after, -, rfl, hstart⟩ := exists_cut_of_mem_scan htoken
  rw [stop, hstart, byteSize_append, byteSize_append]
  omega

/-- Each token ends before the next one starts. -/
theorem pairwise_scan (start : Nat) (text : Text) :
    (scan start text).Pairwise fun token other => token.stop ≤ other.start := by
  fun_induction scan start text with
  | case1 start => exact List.Pairwise.nil
  | case2 start c rest hblank ih => exact ih
  | case3 start c rest hblank hdelimiter ih =>
    exact List.pairwise_cons.2 ⟨fun other hother => start_le_of_mem_scan hother, ih⟩
  | case4 start c rest hblank hdelimiter word ih =>
    exact List.pairwise_cons.2 ⟨fun other hother => start_le_of_mem_scan hother, ih⟩

section Division

variable {text : Text} {earlier later : List Token} {token : Token}

theorem tokenize_division (htokens : tokenize text = earlier ++ token :: later) :
    ∃ before after, Cut before token.text after ∧ text = before ++ token.text ++ after ∧
      token.start = byteSize before ∧ tokenize before = earlier ∧
        lexemes after = later.map Token.text := by
  obtain ⟨before, after, hcut, rfl, hstart, hlater⟩ := exists_cut_of_scan_eq htokens
  rw [Nat.zero_add] at hstart hlater
  refine ⟨before, after, hcut, rfl, hstart, ?_, ?_⟩
  · rw [hcut.tokenize_eq, hlater] at htokens
    exact (List.append_inj' htokens rfl).1
  · rw [← hlater, map_text_scan_eq_lexemes]

theorem lexemes_dropBytes (htokens : tokenize text = earlier ++ token :: later) :
    lexemes (dropBytes token.stop text) = later.map Token.text := by
  obtain ⟨before, after, -, rfl, hstart, -, hlater⟩ := tokenize_division htokens
  have hstop : token.stop = Token.stop ⟨token.text, byteSize before⟩ := by
    rw [Token.stop, hstart, Token.stop]
  rw [hstop, dropBytes_cut, hlater]

end Division

/-! ### Moved tokens -/

def shift (n : Nat) (token : Token) : Token := ⟨token.text, n + token.start⟩

theorem stop_shift (n : Nat) (token : Token) : (token.shift n).stop = n + token.stop :=
  Nat.add_assoc n token.start _

theorem scan_add (n start : Nat) (text : Text) :
    scan (n + start) text = (scan start text).map (shift n) := by
  fun_induction scan start text with
  | case1 start => rw [scan_nil, List.map_nil]
  | case2 start c rest hblank ih => rw [scan, if_pos hblank, ← ih, Nat.add_assoc]
  | case3 start c rest hblank hdelimiter ih =>
    rw [scan, if_neg hblank, if_pos hdelimiter, List.map_cons, ← ih, Nat.add_assoc]
    rfl
  | case4 start c rest hblank hdelimiter word ih =>
    rw [scan_cons_word _ _ hblank hdelimiter, List.map_cons, ← ih, Nat.add_assoc]
    rfl

theorem scan_eq_map_shift (start : Nat) (text : Text) :
    scan start text = (tokenize text).map (shift start) := by
  have hscan := scan_add start 0 text
  rwa [Nat.add_zero] at hscan

theorem last?_map_shift (keyword : Keyword) (n : Nat) (tokens : List Token) :
    last? keyword (tokens.map (shift n)) = (last? keyword tokens).map (shift n) := by
  have hfilter : (tokens.map (shift n)).filter (isKeyword keyword) =
      (tokens.filter (isKeyword keyword)).map (shift n) := List.filter_map
  rw [last?, hfilter, List.getLast?_map, last?]

end Token

/-! ### Texts with something behind them -/

theorem Text.takeBytes_append_of_le {n : Nat} {first : Text} (hn : n ≤ byteSize first)
    (second : Text) : takeBytes n (first ++ second) = takeBytes n first := by
  induction first generalizing n with
  | nil =>
    obtain rfl : n = 0 := Nat.le_zero.1 hn
    cases second <;> rfl
  | cons c first ih =>
    cases n with
    | zero => rfl
    | succ n =>
      rw [byteSize_cons] at hn
      rw [List.cons_append, takeBytes, takeBytes, ih (by omega)]

theorem start_le_of_mem_tokenize {text : Text} {token : Token} (htoken : token ∈ tokenize text) :
    token.start ≤ byteSize text := by
  obtain ⟨before, after, -, rfl, hstart⟩ := Token.exists_cut_of_mem_scan htoken
  rw [hstart, List.append_assoc, byteSize_append]
  omega

theorem takeBytes_start_append {text : Text} {token : Token} (htoken : token ∈ tokenize text)
    (more : Text) : takeBytes token.start (text ++ more) = takeBytes token.start text :=
  takeBytes_append_of_le (start_le_of_mem_tokenize htoken) more

theorem dropBytes_stop_append {text : Text} {token : Token} (htoken : token ∈ tokenize text)
    (more : Text) : dropBytes token.stop (text ++ more) = dropBytes token.stop text ++ more := by
  obtain ⟨before, after, -, rfl, hstart⟩ := Token.exists_cut_of_mem_scan htoken
  have hstop : token.stop = byteSize (before ++ token.text) := by
    rw [Token.stop, hstart, Nat.zero_add, byteSize_append]
  rw [hstop, List.append_assoc _ after, dropBytes_byteSize, dropBytes_byteSize]

theorem isLexeme_of_mem_lexemes {text lexeme : Text} (hmem : lexeme ∈ lexemes text) :
    IsLexeme lexeme := by
  obtain ⟨token, htoken, rfl⟩ := List.mem_map.1 hmem
  exact Token.isLexeme_of_mem_scan htoken

theorem length_takeBytes_start {text : Text} {token : Token} (htoken : token ∈ tokenize text) :
    (takeBytes token.start text).length < text.length := by
  obtain ⟨before, after, hcut, rfl, hstart⟩ := Token.exists_cut_of_mem_scan htoken
  have hlength := List.length_pos_iff.2 hcut.isLexeme.ne_nil
  rw [hstart, Nat.zero_add, takeBytes_cut, List.length_append, List.length_append]
  omega

theorem lexemes_eq_append_dropBytes {text : Text} {token : Token} (htoken : token ∈ tokenize text) :
    ∃ before, lexemes text = before ++ token.text :: lexemes (dropBytes token.stop text) := by
  obtain ⟨earlier, later, htokens⟩ := List.append_of_mem htoken
  refine ⟨earlier.map Token.text, ?_⟩
  rw [Token.lexemes_dropBytes htokens, lexemes, htokens, List.map_append,
    List.map_cons (a := token)]

end RoutingPolicy
