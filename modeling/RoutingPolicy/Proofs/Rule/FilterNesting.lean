import RoutingPolicy.Proofs.Rule.Expression
import RoutingPolicy.Proofs.Rule.FamilyPrefix
import RoutingPolicy.Proofs.Rule.Forms

/-!
# Braces of filters

The filter of a rule is what follows one of the filter keywords among the tokens that count, and these
keywords are found without regard to braces. As long as no refinement leaves a brace open, the braces of
the filter of a well nested rule are well nested exactly if the keyword in front of it stands outside of
all braces but those of a leading group. What is left of a rule behind its family may close braces that
the family opens, but without a refinement these are not among the tokens that count.
-/

namespace RoutingPolicy

open Text

/-- The token is a keyword that a filter can follow. -/
def IntroducesFilter (word : Text) : Prop :=
  ∃ keyword ∈ Decomposition.filterKeywords, Keyword.ofWord? word = some keyword

instance (word : Text) : Decidable (IntroducesFilter word) :=
  inferInstanceAs (Decidable (∃ keyword ∈ Decomposition.filterKeywords, _))

/-- Tokens in capital letters. -/
def inCapitals (lexemes : List Text) : List Text := lexemes.map (List.map Char.toUpper)

/-- The tokens are those of the filter, in any letter case, with at most a semicolon behind them. -/
def Spells (tokens : List Text) (filter : Text) : Prop :=
  inCapitals tokens = inCapitals (lexemes filter) ∨
    inCapitals tokens = inCapitals (lexemes filter ++ [[';']])

instance (tokens : List Text) (filter : Text) : Decidable (Spells tokens filter) :=
  inferInstanceAs (Decidable (_ ∨ _))

/-! ### Letter case -/

theorem inCapitals_append (first second : List Text) :
    inCapitals (first ++ second) = inCapitals first ++ inCapitals second :=
  List.map_append

theorem depth?_of_inCapitals_eq {first second : List Text}
    (heq : inCapitals first = inCapitals second) (depth : Nat) :
    depth? depth first.flatten = depth? depth second.flatten := by
  have hflatten (tokens : List Text) :
      tokens.flatten.map Char.toUpper = (inCapitals tokens).flatten := List.map_flatten
  rw [← depth?_map_toUpper, hflatten, heq, ← hflatten, depth?_map_toUpper]

theorem map_toUpper_of_kind {word : Text} {keyword : Keyword}
    (hkind : Token.Kind.ofText word = .keyword keyword) :
    word.map Char.toUpper = keyword.name.map Char.toUpper := by
  have hsame := Keyword.ofWord?_eq_some_iff.1 (Token.Kind.ofText_eq_keyword_iff.1 hkind)
  exact (beq_iff_eq.1 hsame).symm

theorem IntroducesFilter.of_map_toUpper_eq {word other : Text} (hword : IntroducesFilter word)
    (heq : other.map Char.toUpper = word.map Char.toUpper) : IntroducesFilter other := by
  obtain ⟨keyword, hkeyword, hof⟩ := hword
  refine ⟨keyword, hkeyword, ?_⟩
  rw [Keyword.ofWord?_eq_some_iff, sameLetters, beq_iff_eq] at hof ⊢
  rw [hof, heq]

theorem IntroducesFilter.braceless {word : Text} (hword : IntroducesFilter word) :
    Braceless word := by
  obtain ⟨keyword, -, hof⟩ := hword
  have hisWord := Keyword.isWord_of_ofWord? hof
  exact ⟨hisWord.not_mem (by decide), hisWord.not_mem (by decide)⟩

/-- Behind the keyword of a filter, the filter alone decides about the braces. -/
theorem Spells.depth?_eq {tokens : List Text} {filter : Text} (hspells : Spells tokens filter)
    (depth : Nat) : depth? depth tokens.flatten = depth? depth filter := by
  rcases hspells with heq | heq
  · rw [depth?_of_inCapitals_eq heq, depth?_lexemes]
  · have hsemicolon : Braceless [[';']].flatten := ⟨by decide, by decide⟩
    rw [depth?_of_inCapitals_eq heq, List.flatten_append, hsemicolon.depth?_append_right,
      depth?_lexemes]

/-- The tokens are divided at a keyword with the filter behind it. -/
structure FilterAt (tokens : List Text) (filter : Text) (before : List Text) (keyword : Text)
    (after : List Text) : Prop where
  eq_append : tokens = before ++ keyword :: after
  introducesFilter : IntroducesFilter keyword
  spells : Spells after filter

section FilterAt

variable {tokens before after : List Text} {filter keyword : Text}

theorem FilterAt.wellNested_iff_after (hat : FilterAt tokens filter before keyword after) :
    WellNested filter ↔ WellNested after.flatten := by
  rw [WellNested, ← hat.spells.depth?_eq, WellNested]

theorem FilterAt.exists_depth? (hat : FilterAt tokens filter before keyword after)
    (htokens : WellNested tokens.flatten) :
    ∃ depth, depth? 0 before.flatten = some depth ∧ depth? depth filter = some 0 := by
  rw [hat.eq_append, WellNested, List.flatten_append, List.flatten_cons, depth?_append,
    Option.bind_eq_some_iff] at htokens
  obtain ⟨depth, hbefore, hbehind⟩ := htokens
  rw [hat.introducesFilter.braceless.depth?_append_left, hat.spells.depth?_eq] at hbehind
  exact ⟨depth, hbefore, hbehind⟩

theorem FilterAt.wellNested_iff_before (hat : FilterAt tokens filter before keyword after)
    (htokens : WellNested tokens.flatten) : WellNested filter ↔ WellNested before.flatten := by
  obtain ⟨depth, hbefore, hbehind⟩ := hat.exists_depth? htokens
  constructor
  · intro hfilter
    -- the filter comes back to the depth at which it begins, and that is none
    have hback := depth?_add hfilter depth
    rw [Nat.zero_add, hbehind, Option.some.injEq] at hback
    rw [WellNested, hbefore, ← hback]
  · intro hlevel
    rw [WellNested, hbefore, Option.some.injEq] at hlevel
    rwa [hlevel] at hbehind

end FilterAt

/-! ### Where the filter comes from -/

namespace Decomposition

theorem Leads.exists_lexemes_eq {selector factor : Text} (hleads : Leads selector factor) :
    ∃ before word after lead, (lead = .fromPeer ∨ lead = .toPeer) ∧
      Token.Kind.ofText word = .keyword lead ∧ lexemes selector = before ++ word :: after ∧
      lexemes factor = lead.name :: after := by
  have hlexemes {lead : Keyword} {before word after : Text}
      (hcut : CutAtLast lead selector before word after) :
      lexemes selector = lexemes before ++ word :: lexemes after ∧
        lexemes (clause lead (trim after)) = lead.name :: lexemes after := by
    rw [lexemes_clause, lexemes_trim, ← hcut.cut.lexemes_eq, ← hcut.eq_append]
    exact ⟨rfl, rfl⟩
  cases hleads with
  | fromPeer hcut =>
    obtain ⟨hselector, hfactor⟩ := hlexemes hcut
    exact ⟨_, _, _, .fromPeer, .inl rfl, hcut.kind_eq, hselector, hfactor⟩
  | toPeer _ hcut =>
    obtain ⟨hselector, hfactor⟩ := hlexemes hcut
    exact ⟨_, _, _, .toPeer, .inr rfl, hcut.kind_eq, hselector, hfactor⟩

/-- Factor and filter clause are made of tokens that count, up to the letter case of keywords, or
there is no filter keyword in them. -/
theorem counted_of_decompose {text : Text} {isDefault : Bool} {decomposition : Decomposition}
    (hdecompose : decompose text isDefault = .ok decomposition) :
    (∃ before after, counted text = before ++ after ∧ inCapitals after = inCapitals
      (lexemes decomposition.factor ++ lexemes (decomposition.filterClause.getD []))) ∨
    ∀ lexeme ∈ lexemes decomposition.factor ++ lexemes (decomposition.filterClause.getD []),
      ¬IntroducesFilter lexeme := by
  have hparts := decomposes_decompose text isDefault
  rw [hdecompose] at hparts
  cases hparts with
  | @parts part selector factor filterClause hcounts hdivides hleads =>
    obtain ⟨opening, hopening, hlexemes⟩ := hcounts.exists_lexemes_eq
    obtain ⟨first, word, after, lead, hlead, hword, hselector, hfactor⟩ := hleads.exists_lexemes_eq
    cases hdivides with
    | @filter missing keyword _ boundary rest hpreferred hmissing hcut =>
      left
      have hall : opening ++ counted text =
          first ++ (word :: (after ++ boundary :: lexemes rest)) := by
        rw [← hlexemes, hcut.eq_append, hcut.cut.lexemes_eq, hselector, List.append_assoc,
          List.cons_append]
      -- the brace of a group stands in front of the lead
      obtain ⟨before, rfl⟩ : ∃ before, first = opening ++ before := by
        rcases hopening with rfl | rfl
        · exact ⟨first, rfl⟩
        · cases first with
          | nil =>
            obtain ⟨hopen, -⟩ := List.cons.inj hall
            rw [← hopen] at hword
            exact absurd hword (by simp [Token.Kind.ofText])
          | cons lexeme first => exact ⟨first, by rw [← (List.cons.inj hall).1]; rfl⟩
      rw [List.append_assoc] at hall
      refine ⟨before, _, List.append_cancel_left hall, ?_⟩
      rw [hfactor, Option.getD_some, lexemes_clause, lexemes_trim]
      simp only [inCapitals, List.map_append, List.map_cons, map_toUpper_of_kind hword,
        map_toUpper_of_kind hcut.kind_eq]
      rfl
    | missing hmissing =>
      have hnot : ∀ lexeme ∈ lexemes part, ¬IntroducesFilter lexeme := by
        rintro lexeme hmem ⟨keyword, hkeyword, hlexeme⟩
        exact containsKeyword_eq_false_iff.1 (hmissing keyword hkeyword) lexeme hmem hlexeme
      have hclause : ∀ isDefault : Bool,
          ∀ lexeme ∈ lexemes ((if isDefault then some anyFilter else none).getD []),
            ¬IntroducesFilter lexeme := by
        decide +kernel
      refine .inr (List.forall_mem_append.2 ⟨?_, hclause isDefault⟩)
      rw [hfactor]
      refine List.forall_mem_cons.2 ⟨?_, fun lexeme hmem => ?_⟩
      · rcases hlead with rfl | rfl <;> decide
      · exact hnot lexeme (by rw [hselector]; simp [hmem])

end Decomposition

namespace Factor

/-- Nothing but a semicolon at the end is lost when factor and filter clause are joined. -/
theorem lexemes_joined (factor filterClause : Text) : ∃ final, (final = [] ∨ final = [[';']]) ∧
    lexemes factor ++ lexemes filterClause = lexemes (joined factor filterClause) ++ final := by
  rw [← lexemes_separated, ← lexemes_trim, joined, dropSemicolon]
  generalize trim (factor ++ [' '] ++ filterClause) = text
  split
  next hlast =>
    obtain ⟨front, rfl⟩ := List.getLast?_eq_some_iff.1 hlast
    have hseam : Apart front [';'] := apart_cons front [] (by decide)
    refine ⟨[[';']], .inr rfl, ?_⟩
    rw [List.dropLast_concat, lexemes_trimEnd, lexemes_append hseam,
      lexemes_of_isLexeme (.inr ⟨';', rfl, rfl⟩)]
  next => exact ⟨[], .inl rfl, (List.append_nil _).symm⟩

theorem FilterBehind.exists_lexemes_eq {boundary : Keyword} {text filter lead subject : Text}
    {tail : List Text} (hfilter : FilterBehind boundary text filter)
    (hlexemes : lexemes text = lead :: subject :: tail)
    (hboundary : boundary ∈ Decomposition.filterKeywords) :
    ∃ front word, IntroducesFilter word ∧ lexemes text = front ++ word :: lexemes filter := by
  obtain ⟨passed, word, hword, rfl, -⟩ := hfilter.exists_append hlexemes
  exact ⟨lead :: subject :: passed, word, ⟨boundary, hboundary, hword⟩, hlexemes⟩

/-- The filter is all that stands behind a boundary keyword, or any route if there is none. -/
theorem filter_of_read {factor filterClause : Text} {result : Factor}
    (hread : read factor filterClause = .ok result) : result.filter = anyFilter ∨
      ∃ front word, IntroducesFilter word ∧
        lexemes (joined factor filterClause) = front ++ word :: lexemes result.filter := by
  cases reads_of_read hread with
  | alone _ _ _ | unfiltered _ _ _ _ _ _ => exact .inl rfl
  | accept hlexemes _ _ hfilter | announce hlexemes _ _ hfilter
  | networks hlexemes _ _ _ hfilter =>
    exact .inr (hfilter.exists_lexemes_eq hlexemes (by decide))

end Factor

/-! ### Tokens that count -/

namespace Decomposition

theorem exists_counts_of_decompose {text : Text} {isDefault : Bool} {decomposition : Decomposition}
    (hdecompose : decompose text isDefault = .ok decomposition) :
    ∃ part, Counts (trim text) part := by
  have hparts := decomposes_decompose text isDefault
  rw [hdecompose] at hparts
  cases hparts with
  | parts hcounts _ _ => exact ⟨_, hcounts⟩

theorem isGrouped_eq_false {rule : Text} (htrim : Trimmed rule) (hrule : WellNested rule)
    (hgroup : ∀ inside, ¬LeadingGroup rule inside) (hrefined : ¬Refined rule) :
    isGrouped (tokenize rule) = false := by
  by_contra hgrouped
  rw [Bool.not_eq_false] at hgrouped
  obtain ⟨inside, rfl⟩ := List.head?_eq_some_iff.1 (head?_of_isGrouped htrim hgrouped)
  have hopen := @exists_depth?_of_not_leadingGroup inside []
  rw [List.append_nil] at hopen
  obtain ⟨depth, hdepth⟩ := hopen hgroup hrefined
  -- the brace in front would stay open
  have hbehind := depth?_add hdepth 1
  rw [WellNested, depth?_open] at hrule
  rw [hrule, Option.some.injEq] at hbehind
  omega

/-- Without a refinement the tokens that count are well nested, even if braces are closed in the text
that stand open in front of it: a group has closed its own braces, and without a group there are as
many closing braces as opening ones. -/
theorem wellNested_counted {text part : Text} {outer : Nat} (htext : depth? outer text = some 0)
    (hrefined : ¬Refined text) (hpart : Counts (trim text) part) :
    WellNested (counted text).flatten := by
  have htrim := trimmed_trim text
  rw [← depth?_trim] at htext
  rw [← refined_trim_iff] at hrefined
  rw [← counted_trim]
  cases hpart with
  | group hgroup =>
    rw [counted_of_leadingGroup hgroup, WellNested, depth?_lexemes]
    exact wellNested_of_isGroup hgroup.isGroup
  | @refined before word after _ hcut hrule hends _ =>
    refine absurd ⟨word, ?_, hends⟩ hrefined
    rw [hrule, hcut.lexemes_eq]
    exact List.mem_append_right _ List.mem_cons_self
  | whole hgroup _ hcount =>
    have houter := count_of_depth?_eq_some htext
    obtain rfl : outer = 0 := by omega
    have hgrouped := isGrouped_eq_false htrim htext hgroup hrefined
    have hall : (lexemes (trim text)).takeWhile (!EndsRule ·) = lexemes (trim text) :=
      List.takeWhile_eq_self_iff.2 fun lexeme hmem => by
        simp [(forall_lexemes_of_not_refined hrefined lexeme hmem).2]
    rw [counted, hgrouped, if_neg Bool.false_ne_true, hall, WellNested, depth?_lexemes]
    exact htext

end Decomposition

namespace ParsedRule

variable {text : Text} {context : Context} {rule : ParsedRule}

/-- The filter of a rule is what follows a filter keyword among the tokens that count, unless it is the
one that a rule without a filter has. -/
theorem exists_filterAt (hread : read text context = .ok rule) : rule.factor.filter = anyFilter ∨
    ∃ before keyword after, FilterAt (Decomposition.counted (splitFamily text context).2)
      rule.factor.filter before keyword after := by
  obtain ⟨decomposition, hdecompose, hfactor⟩ := exists_parts_of_read hread
  rcases Factor.filter_of_read hfactor with hany | ⟨front, word, hword, hjoined⟩
  · exact .inl hany
  obtain ⟨final, hfinal, hlexemes⟩ :=
    Factor.lexemes_joined decomposition.factor (decomposition.filterClause.getD [])
  rw [hjoined] at hlexemes
  rcases Decomposition.counted_of_decompose hdecompose with
    ⟨before, after, hcounted, hcapitals⟩ | hnot
  · right
    rw [hlexemes, List.append_assoc, List.cons_append, inCapitals_append] at hcapitals
    obtain ⟨middle, rest, rfl, -, hrest⟩ := List.map_eq_append_iff.1 hcapitals
    obtain ⟨keyword, tokens, rfl, hkeyword, htokens⟩ := List.map_eq_cons_iff.1 hrest
    refine ⟨before ++ middle, keyword, tokens, ?_, hword.of_map_toUpper_eq hkeyword, ?_⟩
    · rw [hcounted, List.append_assoc]
    · rcases hfinal with rfl | rfl
      · rw [List.append_nil] at htokens
        exact .inl htokens
      · exact .inr htokens
  · refine absurd hword (hnot word ?_)
    rw [hlexemes]
    simp

/-- What decides about the filter at its keyword decides about it as a whole. -/
theorem wellNested_filter_iff_forall {condition : List Text → List Text → Prop}
    (hread : read text context = .ok rule)
    (hcondition : ∀ before keyword after,
      FilterAt (Decomposition.counted (splitFamily text context).2) rule.factor.filter before
        keyword after → (WellNested rule.factor.filter ↔ condition before after)) :
    WellNested rule.factor.filter ↔ ∀ before keyword after,
      FilterAt (Decomposition.counted (splitFamily text context).2) rule.factor.filter before
        keyword after → condition before after := by
  constructor
  · intro hfilter before keyword after hat
    exact (hcondition before keyword after hat).1 hfilter
  · intro hall
    rcases exists_filterAt hread with hany | ⟨before, keyword, after, hat⟩
    · rw [hany]
      decide
    · exact (hcondition before keyword after hat).2 (hall before keyword after hat)

/-- The filter of a well nested rule is well nested exactly if, among the tokens that count, those
behind its keyword are. If all tokens that count are well nested, as they are without a refinement,
this means that the keyword stands outside of all braces but those of a leading group. -/
theorem wellNested_filter_iff (hread : read text context = .ok rule) (htext : WellNested text) :
    let body := (splitFamily text context).2
    let tokens := Decomposition.counted body
    (¬Decomposition.Refined body → WellNested tokens.flatten) ∧
    (WellNested rule.factor.filter ↔ ∀ before keyword after,
      FilterAt tokens rule.factor.filter before keyword after → WellNested after.flatten) ∧
    (WellNested tokens.flatten → (WellNested rule.factor.filter ↔ ∀ before keyword after,
      FilterAt tokens rule.factor.filter before keyword after → WellNested before.flatten)) := by
  intro body tokens
  refine ⟨fun hrefined => ?_, ?_, fun htokens => ?_⟩
  · obtain ⟨decomposition, hdecompose, -⟩ := exists_parts_of_read hread
    obtain ⟨part, hpart⟩ := Decomposition.exists_counts_of_decompose hdecompose
    obtain ⟨outer, hbody⟩ := exists_depth?_of_suffix (suffix_splitFamily text context) htext
    exact Decomposition.wellNested_counted hbody hrefined hpart
  · apply wellNested_filter_iff_forall hread
    intro before keyword after hat
    exact hat.wellNested_iff_after
  · apply wellNested_filter_iff_forall hread
    intro before keyword after hat
    exact hat.wellNested_iff_before htokens

/-- A filter with braces of its own, in a group. The token of the family opens a brace that the rest of
the rule closes. -/
theorem wellNested_filter_grouped :
    let text := "AFI {X { FROM AS1 ACCEPT {10.0.0.0/8} AND AS-A } }".toList
    let context := Context.importing true
    let family := AddressFamily.ofToken (['{'] ++ "X".toList)
    let body := (splitFamily text context).2
    let filter := "{10.0.0.0/8} AND AS-A".toList
    let before := ["FROM".toList, "AS1".toList]
    let after := [['{'], "10.0.0.0/8".toList, ['}'], "AND".toList, "AS-A".toList]
    read text context = .ok ⟨family, .incoming, true, "AS1".toList, filter⟩ ∧
      WellNested text ∧ ¬WellNested body ∧ ¬Decomposition.Refined body ∧
      WellNested (Decomposition.counted body).flatten ∧
      FilterAt (Decomposition.counted body) filter before "ACCEPT".toList after ∧
      WellNested filter ∧ WellNested before.flatten ∧ WellNested after.flatten := by
  intro text context family body filter before after
  have hread : read text context = .ok ⟨family, .incoming, true, "AS1".toList, filter⟩ := by
    decide +kernel
  have htext : WellNested text := by decide
  have hbody : ¬WellNested body := by decide +kernel
  have hrefined : ¬Decomposition.Refined body := by decide +kernel
  have hfilter : WellNested filter := by decide
  have hat : FilterAt (Decomposition.counted body) filter before "ACCEPT".toList after :=
    ⟨by decide +kernel, by decide, by decide +kernel⟩
  obtain ⟨htokens, hbehind, hlevel⟩ := wellNested_filter_iff hread htext
  exact ⟨hread, htext, hbody, hrefined, htokens hrefined, hat, hfilter,
    (hlevel (htokens hrefined)).1 hfilter before _ after hat, hbehind.1 hfilter before _ after hat⟩

/-- Of two groups only the outer one is opened, and the brace that closes the inner one stays with the
filter. A refinement cuts off the brace that closes the one in front of it. -/
theorem not_wellNested_filter_inner_braces :
    (let text := "{ { FROM AS1 ACCEPT AS-A } }".toList
    let filter := "AS-A ".toList ++ ['}']
    WellNested text ∧
      read text (.importing false) = .ok ⟨.ipv4Unicast, .incoming, false, "AS1".toList, filter⟩ ∧
      ¬WellNested filter) ∧
    let text := "FROM AS1 ACCEPT { AS-A REFINE ANY }".toList
    let filter := ['{'] ++ " AS-A".toList
    WellNested text ∧
      read text (.importing false) = .ok ⟨.ipv4Unicast, .incoming, false, "AS1".toList, filter⟩ ∧
      ¬WellNested filter := by
  decide +kernel

end ParsedRule

end RoutingPolicy
