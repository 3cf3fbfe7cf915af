import RoutingPolicy.Proofs.Rule.Position

/-!
# Rules divided at a keyword

A rule can be divided at each of its tokens. The readers of a rule divide it at the first or the last
token that spells a keyword, and what they find there is told by the division alone: the keyword does
not occur in front of its first token, and it does not occur behind its last one.
-/

namespace RoutingPolicy

open Text

/-- A list is divided at the last of its elements that have a property. -/
theorem exists_append_of_last {α : Type} {p : α → Prop} {items : List α}
    (hsome : ∃ item ∈ items, p item) : ∃ earlier item later, items = earlier ++ item :: later ∧
      p item ∧ ∀ other ∈ later, ¬p other := by
  induction items with
  | nil => simp at hsome
  | cons first items ih =>
    by_cases hlater : ∃ item ∈ items, p item
    · obtain ⟨earlier, item, later, rfl, hitem, hnone⟩ := ih hlater
      exact ⟨first :: earlier, item, later, rfl, hitem, hnone⟩
    · have hnone : ∀ other ∈ items, ¬p other := fun other hmem hother =>
        hlater ⟨other, hmem, hother⟩
      obtain ⟨item, hmem, hitem⟩ := hsome
      rcases List.mem_cons.1 hmem with rfl | hmem
      · exact ⟨[], item, items, rfl, hitem, hnone⟩
      · exact absurd hitem (hnone item hmem)

theorem exists_cut_of_lexemes_eq {text word : Text} {earlier later : List Text}
    (hlexemes : lexemes text = earlier ++ word :: later) :
    ∃ before after, Cut before word after ∧ text = before ++ word ++ after ∧
      lexemes before = earlier ∧ lexemes after = later := by
  obtain ⟨passed, rest, htokens, hearlier, hrest⟩ := List.map_eq_append_iff.1 hlexemes
  obtain ⟨token, tokens, rfl, rfl, hlater⟩ := List.map_eq_cons_iff.1 hrest
  obtain ⟨before, after, hcut, htext, -, hbefore, hafter⟩ := Token.tokenize_division htokens
  exact ⟨before, after, hcut, htext, by rw [lexemes, hbefore, hearlier], by rw [hafter, hlater]⟩

theorem Cut.lexemes_eq {before word after : Text} (hcut : Cut before word after) :
    lexemes (before ++ word ++ after) = lexemes before ++ word :: lexemes after := by
  rw [lexemes_append (hcut.right.append_left hcut.isLexeme.ne_nil before),
    lexemes_append hcut.left, lexemes_of_isLexeme hcut.isLexeme, List.append_assoc,
    List.singleton_append]

theorem Token.first?_eq_none {text : Text} {keyword : Keyword}
    (htext : containsKeyword text keyword = false) :
    Token.first? keyword (tokenize text) = none :=
  List.find?_eq_none.2 fun token htoken => by simpa using List.any_eq_false.1 htext token htoken

theorem Token.last?_eq_none {text : Text} {keyword : Keyword}
    (htext : containsKeyword text keyword = false) :
    Token.last? keyword (tokenize text) = none := by
  have hnil : (tokenize text).filter (Token.isKeyword keyword) = [] :=
    List.filter_eq_nil_iff.2 fun token htoken => by
      simpa using List.any_eq_false.1 htext token htoken
  rw [Token.last?, hnil, List.getLast?_nil]

/-- A text is cut at a token that spells a keyword. -/
structure CutAt (keyword : Keyword) (text before word after : Text) : Prop where
  cut : Cut before word after
  eq_append : text = before ++ word ++ after
  ofWord? : Keyword.ofWord? word = some keyword

/-- A text is cut at the first token that spells a keyword. -/
structure CutAtFirst (keyword : Keyword) (text before word after : Text) : Prop
    extends CutAt keyword text before word after where
  before_eq_false : containsKeyword before keyword = false

/-- A text is cut at the last token that spells a keyword. -/
structure CutAtLast (keyword : Keyword) (text before word after : Text) : Prop
    extends CutAt keyword text before word after where
  after_eq_false : containsKeyword after keyword = false

section Keywords

variable {keyword : Keyword} {text before word after : Text}

theorem CutAt.kind_eq (hcut : CutAt keyword text before word after) :
    Token.Kind.ofText word = .keyword keyword :=
  Token.Kind.ofText_eq_keyword_iff.2 hcut.ofWord?

theorem CutAt.containsKeyword_eq_true (hcut : CutAt keyword text before word after) :
    containsKeyword text keyword = true := by
  by_contra hnot
  rw [Bool.not_eq_true, containsKeyword_eq_false_iff, hcut.eq_append, hcut.cut.lexemes_eq] at hnot
  exact hnot word (List.mem_append_right _ List.mem_cons_self) hcut.ofWord?

theorem CutAt.containsKeyword_after (hcut : CutAt keyword text before word after)
    {other : Keyword} (htext : containsKeyword text other = false) :
    containsKeyword after other = false := by
  rw [containsKeyword_eq_false_iff] at htext ⊢
  rw [hcut.eq_append, hcut.cut.lexemes_eq] at htext
  exact fun lexeme hmem => htext lexeme
    (List.mem_append_right _ (List.mem_cons_of_mem word hmem))

theorem CutAtFirst.first?_eq (hcut : CutAtFirst keyword text before word after) :
    Token.first? keyword (tokenize text) = some ⟨word, byteSize before⟩ := by
  rw [hcut.eq_append]
  exact hcut.cut.first?_eq hcut.kind_eq hcut.before_eq_false

theorem CutAtLast.last?_eq (hcut : CutAtLast keyword text before word after) :
    Token.last? keyword (tokenize text) = some ⟨word, byteSize before⟩ := by
  rw [hcut.eq_append]
  exact hcut.cut.last?_eq hcut.kind_eq hcut.after_eq_false

theorem exists_cutAtFirst (htext : containsKeyword text keyword = true) :
    ∃ before word after, CutAtFirst keyword text before word after := by
  rw [containsKeyword_eq_any, List.any_eq_true] at htext
  obtain ⟨word, hfound⟩ := Option.isSome_iff_exists.1 (List.find?_isSome.2 htext)
  obtain ⟨hkind, earlier, later, hlexemes, hearlier⟩ := List.find?_eq_some_iff_append.1 hfound
  obtain ⟨before, after, hcut, htext, rfl, -⟩ := exists_cut_of_lexemes_eq hlexemes
  refine ⟨before, word, after, ⟨hcut, htext, ?_⟩, ?_⟩
  · exact Token.Kind.ofText_eq_keyword_iff.1 (beq_iff_eq.1 hkind)
  · rw [containsKeyword_eq_any, List.any_eq_false]
    exact fun lexeme hmem => by simpa using hearlier lexeme hmem

theorem exists_cutAtLast (htext : containsKeyword text keyword = true) :
    ∃ before word after, CutAtLast keyword text before word after := by
  rw [containsKeyword_eq_any, List.any_eq_true] at htext
  obtain ⟨earlier, word, later, hlexemes, hkind, hlater⟩ := exists_append_of_last htext
  obtain ⟨before, after, hcut, htext, -, hafter⟩ := exists_cut_of_lexemes_eq hlexemes
  refine ⟨before, word, after, ⟨hcut, htext, ?_⟩, ?_⟩
  · exact Token.Kind.ofText_eq_keyword_iff.1 (beq_iff_eq.1 hkind)
  · rw [containsKeyword_eq_any, hafter, List.any_eq_false]
    exact hlater

end Keywords

end RoutingPolicy
