import RoutingPolicy.Proofs.Rule.Counted

/-!
# What a decomposition accepts

The decomposition of a rule goes through its tokens three times: for the part that counts, for the
filter keyword and for the lead of the factor. Here each of the three steps is a relation between a
text and its parts, without positions and without a scan, and the decomposition is shown to return
exactly what they allow. A group is told by its braces: it is the shortest text from an opening brace on
that has as many closing braces.
-/

namespace RoutingPolicy

open Text

namespace Decomposition

/-! ### Groups -/

/-- An opening brace with all that stands up to the brace that closes it. -/
structure IsGroup (group : Text) : Prop where
  head?_eq : group.head? = some '{'
  count_eq : group.count '{' = group.count '}'
  shortest : ∀ front, front <+: group → front ≠ [] → front.count '{' = front.count '}' →
    front = group

theorem count_group (inside : Text) : (['{'] ++ inside ++ ['}']).count '{' = inside.count '{' + 1 ∧
    (['{'] ++ inside ++ ['}']).count '}' = inside.count '}' + 1 := by
  simp

theorem isGroup_of_wellNested {inside : Text} (hinside : WellNested inside) :
    IsGroup (['{'] ++ inside ++ ['}']) := by
  obtain ⟨hopen, hclose⟩ := count_group inside
  refine ⟨rfl, ?_, fun front hfront hne hcount => ?_⟩
  · have hcount := count_of_depth?_eq_some hinside
    omega
  · rcases List.prefix_concat_iff.1 hfront with hall | ⟨more, hmore⟩
    · exact hall
    · obtain ⟨c, first, rfl⟩ := List.exists_cons_of_ne_nil hne
      obtain ⟨rfl, hinsideEq⟩ := List.cons.inj hmore
      obtain rfl : first ++ more = inside := hinsideEq
      -- inside of the group no brace is closed that was not opened there
      rw [WellNested, depth?_append, Option.bind_eq_some_iff] at hinside
      obtain ⟨depth, hfirst, -⟩ := hinside
      have hdepth := count_of_depth?_eq_some hfirst
      rw [List.count_cons_self, List.count_cons_of_ne (by decide)] at hcount
      omega

theorem isGroup_iff {group : Text} :
    IsGroup group ↔ ∃ inside, WellNested inside ∧ group = ['{'] ++ inside ++ ['}'] := by
  constructor
  · intro hgroup
    obtain ⟨tail, rfl⟩ := List.head?_eq_some_iff.1 hgroup.head?_eq
    have hcount := hgroup.count_eq
    rw [List.count_cons_self, List.count_cons_of_ne (by decide)] at hcount
    cases hdepth : depth? 0 tail with
    | some depth =>
      have htail := count_of_depth?_eq_some hdepth
      omega
    | none =>
      obtain ⟨inside, rest, rfl, hinside⟩ := exists_close_of_depth?_eq_none hdepth
      have hfront : ['{'] ++ inside ++ ['}'] <+: '{' :: (inside ++ '}' :: rest) :=
        ⟨rest, by simp⟩
      exact ⟨inside, hinside, (hgroup.shortest _ hfront (by simp)
        (isGroup_of_wellNested hinside).count_eq).symm⟩
  · rintro ⟨inside, hinside, rfl⟩
    exact isGroup_of_wellNested hinside

theorem wellNested_of_isGroup {inside : Text} (hgroup : IsGroup (['{'] ++ inside ++ ['}'])) :
    WellNested inside := by
  obtain ⟨other, hother, heq⟩ := isGroup_iff.1 hgroup
  have hinside : inside = other := List.append_cancel_left (List.append_cancel_right heq)
  rwa [hinside]

/-- A rule begins with a group in which there is no refinement. -/
structure LeadingGroup (rule inside : Text) : Prop where
  isGroup : IsGroup (['{'] ++ inside ++ ['}'])
  isPrefix : ['{'] ++ inside ++ ['}'] <+: rule
  not_refined : ¬Refined inside

/-! ### The part that counts -/

/-- The part of a trimmed rule that counts: the inside of a leading group, or else all that stands in
front of the first refinement, or else the whole rule if its braces match in number. -/
inductive Counts (rule : Text) : Text → Prop
  | group {inside : Text} (hgroup : LeadingGroup rule inside) : Counts rule (trim inside)
  | refined {before word after : Text} (hgroup : ∀ inside, ¬LeadingGroup rule inside)
      (hcut : Cut before word after) (hrule : rule = before ++ word ++ after)
      (hends : EndsRule word) (hbefore : ¬Refined before) : Counts rule (trim before)
  | whole (hgroup : ∀ inside, ¬LeadingGroup rule inside) (hrefined : ¬Refined rule)
      (hcount : rule.count '{' = rule.count '}') : Counts rule rule

theorem not_refined_iff {text : Text} : ¬Refined text ↔
    containsKeyword text .refine = false ∧ containsKeyword text .except = false := by
  rw [containsKeyword_eq_false_iff, containsKeyword_eq_false_iff]
  constructor
  · intro hrefined
    exact ⟨fun word hmem hword => hrefined ⟨word, hmem, .inl hword⟩,
      fun word hmem hword => hrefined ⟨word, hmem, .inr hword⟩⟩
  · rintro ⟨hrefine, hexcept⟩ ⟨word, hmem, hword | hword⟩
    · exact hrefine word hmem hword
    · exact hexcept word hmem hword

theorem Refined.append_left {before after : Text} (happart : Apart before after)
    (hbefore : Refined before) : Refined (before ++ after) := by
  obtain ⟨word, hmem, hends⟩ := hbefore
  exact ⟨word, by rw [lexemes_append happart]; exact List.mem_append_left _ hmem, hends⟩

theorem refined_trim_iff {text : Text} : Refined (trim text) ↔ Refined text := by
  rw [Refined, lexemes_trim, Refined]

theorem exists_cut_of_refined {rule : Text} (hrefined : Refined rule) :
    ∃ before word after, Cut before word after ∧ rule = before ++ word ++ after ∧ EndsRule word ∧
      ¬Refined before := by
  have hsome : ((lexemes rule).find? (EndsRule ·)).isSome = true := by
    rw [List.find?_isSome]
    simpa [Refined] using hrefined
  obtain ⟨word, hfound⟩ := Option.isSome_iff_exists.1 hsome
  obtain ⟨hends, earlier, later, hlexemes, hearlier⟩ := List.find?_eq_some_iff_append.1 hfound
  obtain ⟨before, after, hcut, hrule, rfl, -⟩ := exists_cut_of_lexemes_eq hlexemes
  refine ⟨before, word, after, hcut, hrule, of_decide_eq_true hends, ?_⟩
  rintro ⟨other, hmem, hother⟩
  simpa [hother] using hearlier other hmem

/-- A group in front of a refinement, or of the end, that is not closed there leaves braces open. -/
theorem exists_depth?_of_not_leadingGroup {inside rest : Text}
    (hgroup : ∀ other, ¬LeadingGroup ('{' :: inside ++ rest) other)
    (hinside : ¬Refined ('{' :: inside)) : ∃ depth, depth? 0 inside = some depth := by
  cases hdepth : depth? 0 inside with
  | some depth => exact ⟨depth, rfl⟩
  | none =>
    -- the group is closed by the first brace that is not opened inside
    obtain ⟨first, more, rfl, hfirst⟩ := exists_close_of_depth?_eq_none hdepth
    refine absurd ⟨isGroup_of_wellNested hfirst, ⟨more ++ rest, by simp⟩, ?_⟩ (hgroup first)
    intro hrefined
    refine hinside ?_
    obtain ⟨word, hmem, hends⟩ :=
      hrefined.append_left (apart_cons first more (d := '}') (by decide))
    refine ⟨word, ?_, hends⟩
    rw [lexemes_eq_cons_tail rfl]
    exact List.mem_cons_of_mem _ hmem

/-- In front of a refinement, or of the end, the scan of a rule without a leading group only counts the
braces. -/
theorem expression?_eq_scanGroup {before rest : Text} (hrule : Trimmed (before ++ rest))
    (happart : Apart before rest) (hgroup : ∀ inside, ¬LeadingGroup (before ++ rest) inside)
    (hbefore : ¬Refined before) : ∃ (grouped : Bool) (depth : Int),
      depth + before.count '}' = before.count '{' ∧ expression? (before ++ rest) =
        scanGroup (before ++ rest) grouped depth (Token.scan (byteSize before) rest) := by
  obtain ⟨hrefine, hexcept⟩ := not_refined_iff.1 hbefore
  have htokens : tokenize (before ++ rest) =
      tokenize before ++ Token.scan (byteSize before) rest := by
    rw [tokenize, Token.scan_append 0 happart, Nat.zero_add, tokenize]
  have hopen := count_lexemes (c := '{') (by decide) before
  have hclose := count_lexemes (c := '}') (by decide) before
  cases hgrouped : isGrouped (tokenize (before ++ rest)) with
  | false =>
    have hpassed : ∀ token ∈ tokenize before,
        token.kind ≠ .keyword .refine ∧ token.kind ≠ .keyword .except := fun token htoken =>
      ⟨kind_ne_of_mem_scan hrefine htoken, kind_ne_of_mem_scan hexcept htoken⟩
    refine ⟨false, (before.count '{' : Int) - before.count '}', by omega, ?_⟩
    simp only [expression?, hgrouped]
    rw [htokens]
    refine scanGroup_passed _ hpassed ?_ _
    rw [← lexemes, hopen, hclose]
    omega
  | true =>
    have hhead := head?_of_isGrouped hrule hgrouped
    cases before with
    | nil =>
      refine ⟨true, 0, rfl, ?_⟩
      simp only [expression?, hgrouped]
      rfl
    | cons c inside =>
      obtain rfl : c = '{' := Option.some.inj hhead
      have hleft : Apart ['{'] inside := apart_append_singleton [] inside (by decide)
      obtain ⟨depth, hdepth⟩ := exists_depth?_of_not_leadingGroup hgroup hbefore
      have hcount := count_of_depth?_eq_some hdepth
      refine ⟨true, (depth : Int) + 1, ?_, ?_⟩
      · rw [List.count_cons_self, List.count_cons_of_ne (by decide)]
        omega
      have hopening : tokenize ('{' :: inside) = ⟨['{'], 0⟩ :: Token.scan 1 inside := by
        rw [← List.singleton_append, tokenize, Token.scan_append 0 hleft,
          Token.scan_lexeme 0 (.inr ⟨'{', rfl, rfl⟩), List.singleton_append]
        rfl
      have hwithout (keyword : Keyword) (hkeyword : containsKeyword ('{' :: inside) keyword = false) :
          containsKeyword inside keyword = false := by
        rw [← List.singleton_append, containsKeyword_append hleft, Bool.or_eq_false_iff] at hkeyword
        exact hkeyword.2
      have hpassed : ∀ token ∈ Token.scan 1 inside, IsLexeme token.text ∧
          token.kind ≠ .keyword .refine ∧ token.kind ≠ .keyword .except := fun token htoken =>
        ⟨Token.isLexeme_of_mem_scan htoken, kind_ne_of_mem_scan (hwithout _ hrefine) htoken,
          kind_ne_of_mem_scan (hwithout _ hexcept) htoken⟩
      have hnested : depth? 0 ((Token.scan 1 inside).map Token.text).flatten = some depth := by
        rw [map_text_scan_eq_lexemes, depth?_lexemes, hdepth]
      simp only [expression?, hgrouped]
      rw [htokens, hopening]
      exact scanGroup_nested _ (fun _ => Int.one_pos) hpassed hnested _

theorem expression?_of_not_refined {rule : Text} (hrule : Trimmed rule)
    (hgroup : ∀ inside, ¬LeadingGroup rule inside) (hrefined : ¬Refined rule) :
    expression? rule = if rule.count '{' = rule.count '}' then some rule else none := by
  have hscan := @expression?_eq_scanGroup rule []
  rw [List.append_nil] at hscan
  obtain ⟨grouped, depth, hdepth, hscan⟩ := hscan hrule (apart_nil_right rule) hgroup hrefined
  rw [hscan, Token.scan_nil, scanGroup]
  congr 1
  rw [eq_iff_iff]
  omega

theorem expression?_of_counts {rule part : Text} (hrule : Trimmed rule) (hpart : Counts rule part) :
    expression? rule = some part := by
  cases hpart with
  | group hgroup =>
    obtain ⟨hrefine, hexcept⟩ := not_refined_iff.1 hgroup.not_refined
    obtain ⟨rest, rfl⟩ := hgroup.isPrefix
    exact expression?_group (wellNested_of_isGroup hgroup.isGroup) hrefine hexcept rest
  | @refined before word after hgroup hcut heq hends hbefore =>
    rw [List.append_assoc] at heq
    subst heq
    have htokens := Token.scan_append (byteSize before) hcut.right
    rw [Token.scan_lexeme _ hcut.isLexeme, List.singleton_append] at htokens
    obtain ⟨grouped, depth, -, hscan⟩ :=
      expression?_eq_scanGroup hrule (hcut.left.append_right hcut.isLexeme.ne_nil after) hgroup
        hbefore
    rw [hscan, htokens, scanGroup_of_endsRule hends, takeBytes_byteSize]
  | whole hgroup hrefined hcount =>
    rw [expression?_of_not_refined hrule hgroup hrefined, if_pos hcount]

theorem expression?_of_not_counts {rule : Text} (hrule : Trimmed rule)
    (hnone : ∀ part, ¬Counts rule part) : expression? rule = none := by
  have hgroup : ∀ inside, ¬LeadingGroup rule inside := fun _ hgroup => hnone _ (.group hgroup)
  have hrefined : ¬Refined rule := by
    intro hrefined
    obtain ⟨before, word, after, hcut, heq, hends, hbefore⟩ := exists_cut_of_refined hrefined
    exact hnone _ (.refined hgroup hcut heq hends hbefore)
  rw [expression?_of_not_refined hrule hgroup hrefined,
    if_neg fun hcount => hnone _ (.whole hgroup hrefined hcount)]

theorem Counts.not_refined {rule part : Text} (hpart : Counts rule part) : ¬Refined part := by
  cases hpart with
  | group hgroup => exact fun hrefined => hgroup.not_refined (refined_trim_iff.1 hrefined)
  | refined _ _ _ _ hbefore => exact fun hrefined => hbefore (refined_trim_iff.1 hrefined)
  | whole _ hrefined _ => exact hrefined

/-! ### The tokens that count -/

theorem counted_of_leadingGroup {rule inside : Text} (hgroup : LeadingGroup rule inside) :
    counted rule = lexemes inside := by
  obtain ⟨rest, rfl⟩ := hgroup.isPrefix
  have hclose : Cut (['{'] ++ inside) ['}'] rest := cut_delimiter (by decide) _ rest
  have hdepth : depth? 0 (lexemes inside).flatten = some 0 := by
    rw [depth?_lexemes]
    exact wellNested_of_isGroup hgroup.isGroup
  have hpassed := forall_lexemes_of_not_refined hgroup.not_refined
  have hopen : lexemes (['{'] ++ inside) = ['{'] :: lexemes inside := lexemes_eq_cons_tail rfl
  rw [counted, if_pos (isGrouped_of_head? rfl), hclose.lexemes_eq, hopen, List.cons_append,
    List.tail_cons, insideGroup_append hpassed hdepth, insideGroup_close_zero, List.append_nil]

/-- Without a leading group, what stands in front of a refinement or of the end counts, except for a
brace that opens the rule. -/
theorem exists_lexemes_eq_counted {before rest : Text} (hrule : Trimmed (before ++ rest))
    (happart : Apart before rest) (hgroup : ∀ inside, ¬LeadingGroup (before ++ rest) inside)
    (hbefore : ¬Refined before) (hrest : ∀ lexeme ∈ (lexemes rest).head?, EndsRule lexeme) :
    ∃ opening, (opening = [] ∨ opening = [['{']]) ∧
      lexemes before = opening ++ counted (before ++ rest) := by
  have hpassed := forall_lexemes_of_not_refined hbefore
  rw [counted, lexemes_append happart]
  split
  next hgrouped =>
    have hhead := head?_of_isGrouped hrule hgrouped
    cases before with
    | nil =>
      rw [List.nil_append] at hhead
      rw [lexemes_eq_cons_tail hhead] at hrest
      exact absurd (hrest _ rfl) not_endsRule_open
    | cons c inside =>
      obtain rfl : c = '{' := Option.some.inj hhead
      obtain ⟨depth, hdepth⟩ := exists_depth?_of_not_leadingGroup hgroup hbefore
      have hopen : lexemes ('{' :: inside) = ['{'] :: lexemes inside := lexemes_eq_cons_tail rfl
      rw [hopen] at hpassed ⊢
      rw [← depth?_lexemes] at hdepth
      have htail : (['{'] :: lexemes inside ++ lexemes rest).tail = lexemes inside ++ lexemes rest :=
        rfl
      refine ⟨[['{']], .inr rfl, ?_⟩
      rw [htail, insideGroup_append (List.forall_mem_cons.1 hpassed).2 hdepth,
        insideGroup_of_head? _ _ hrest, List.append_nil, List.singleton_append]
  next =>
    have hnone : (lexemes rest).takeWhile (!EndsRule ·) = [] := by
      cases hlexemes : lexemes rest with
      | nil => rfl
      | cons lexeme later =>
        have hends := hrest lexeme (by rw [hlexemes]; rfl)
        rw [List.takeWhile_cons_of_neg (by simp [hends])]
    refine ⟨[], .inl rfl, ?_⟩
    rw [List.takeWhile_append_of_pos fun lexeme hmem => by simp [(hpassed lexeme hmem).2], hnone,
      List.append_nil, List.nil_append]

/-- The part that counts has the tokens that count, and the brace of a group that it does not close. -/
theorem Counts.exists_lexemes_eq {text part : Text} (hpart : Counts (trim text) part) :
    ∃ opening, (opening = [] ∨ opening = [['{']]) ∧ lexemes part = opening ++ counted text := by
  have hrule := trimmed_trim text
  rw [← counted_trim]
  cases hpart with
  | group hgroup =>
    refine ⟨[], .inl rfl, ?_⟩
    rw [lexemes_trim, counted_of_leadingGroup hgroup, List.nil_append]
  | @refined before word after hgroup hcut heq hends hbefore =>
    rw [List.append_assoc] at heq
    rw [heq] at hrule hgroup ⊢
    rw [lexemes_trim]
    refine exists_lexemes_eq_counted hrule (hcut.left.append_right hcut.isLexeme.ne_nil after) hgroup
      hbefore fun lexeme hmem => ?_
    rw [lexemes_append hcut.right, lexemes_of_isLexeme hcut.isLexeme] at hmem
    rwa [← Option.some.inj hmem]
  | whole hgroup hrefined _ =>
    have hwhole := @exists_lexemes_eq_counted (trim text) []
    rw [List.append_nil] at hwhole
    exact hwhole hrule (apart_nil_right _) hgroup hrefined fun lexeme hmem => by simp at hmem

/-! ### The whole decomposition -/

/-- What a rule decomposes into, or why it does not. -/
inductive Decomposes (text : Text) (isDefault : Bool) : Except RuleError Decomposition → Prop
  | unbalanced (hnone : ∀ part, ¬Counts (trim text) part) :
      Decomposes text isDefault (.error (.unbalancedBraces (trim text)))
  | missingFactor {part selector : Text} {filterClause : Option Text}
      (hcounts : Counts (trim text) part) (hdivides : Divides part isDefault selector filterClause)
      (hfrom : containsKeyword selector .fromPeer = false)
      (hto : containsKeyword selector .toPeer = false) :
      Decomposes text isDefault (.error (.missingFactor (trim selector) (trim text)))
  | parts {part selector factor : Text} {filterClause : Option Text}
      (hcounts : Counts (trim text) part) (hdivides : Divides part isDefault selector filterClause)
      (hleads : Leads selector factor) : Decomposes text isDefault (.ok ⟨factor, filterClause⟩)

theorem decompose_of_decomposes {text : Text} {isDefault : Bool}
    {result : Except RuleError Decomposition} (hresult : Decomposes text isDefault result) :
    decompose text isDefault = result := by
  cases hresult with
  | unbalanced hnone => simp only [decompose, expression?_of_not_counts (trimmed_trim text) hnone]
  | missingFactor hcounts hdivides hfrom hto =>
    simp only [decompose, expression?_of_counts (trimmed_trim text) hcounts,
      splitFilter_of_divides hdivides, factor?_of_not_contains hfrom hto]
  | parts hcounts hdivides hleads =>
    simp only [decompose, expression?_of_counts (trimmed_trim text) hcounts,
      splitFilter_of_divides hdivides, factor?_of_leads hleads]

theorem exists_decomposes (text : Text) (isDefault : Bool) :
    ∃ result, Decomposes text isDefault result := by
  by_cases hcounts : ∃ part, Counts (trim text) part
  · obtain ⟨part, hcounts⟩ := hcounts
    obtain ⟨selector, filterClause, hdivides⟩ := exists_divides part isDefault
    by_cases hlead : containsKeyword selector .fromPeer = true ∨
        containsKeyword selector .toPeer = true
    · obtain ⟨factor, hleads⟩ := exists_leads hlead
      exact ⟨_, .parts hcounts hdivides hleads⟩
    · rw [not_or, Bool.not_eq_true, Bool.not_eq_true] at hlead
      exact ⟨_, .missingFactor hcounts hdivides hlead.1 hlead.2⟩
  · exact ⟨_, .unbalanced (not_exists.1 hcounts)⟩

theorem decomposes_decompose (text : Text) (isDefault : Bool) :
    Decomposes text isDefault (decompose text isDefault) := by
  obtain ⟨result, hresult⟩ := exists_decomposes text isDefault
  rwa [decompose_of_decomposes hresult]

/-- A decomposition returns what the relation of a rule and its parts allows and nothing else: an error
for braces exactly if no part of the rule counts, and one for the peer exactly if the selector has
neither `FROM` nor `TO`. A leading group is well nested inside, and no part that counts is refined. -/
theorem decompose_eq_iff (text : Text) (isDefault : Bool) :
    (∀ result, decompose text isDefault = result ↔ Decomposes text isDefault result) ∧
    (∀ inside, LeadingGroup (trim text) inside → WellNested inside) ∧
    (∀ part, Counts (trim text) part → ¬Refined part) ∧
    ∀ selector factor, Leads selector factor →
      ∃ tail, if containsKeyword selector .fromPeer then
          factor = clause .fromPeer tail ∧ containsKeyword tail .fromPeer = false
        else factor = clause .toPeer tail ∧ containsKeyword tail .fromPeer = false ∧
          containsKeyword tail .toPeer = false := by
  refine ⟨fun result => ⟨fun hresult => ?_, decompose_of_decomposes⟩,
    fun _ hgroup => wellNested_of_isGroup hgroup.isGroup, fun _ => Counts.not_refined,
    fun _ _ => Leads.exists_tail⟩
  rw [← hresult]
  exact decomposes_decompose text isDefault

/-- A group that is closed in front of a refinement, with a brace that is left open behind it. -/
theorem decompose_leading_group :
    let inside := " FROM AS1 TO AS2 ACCEPT {10.0.0.0/8}; ".toList
    let text := [' '] ++ (['{'] ++ inside ++ ['}']) ++ " REFINE ".toList ++ ['{']
    let selector := "FROM AS1 TO AS2 ".toList
    let factor := "FROM AS1 TO AS2".toList
    let result := .ok ⟨factor, some "ACCEPT {10.0.0.0/8};".toList⟩
    LeadingGroup (trim text) inside ∧ WellNested inside ∧ Counts (trim text) (trim inside) ∧
      ¬Refined (trim inside) ∧ decompose text false = result ∧ Decomposes text false result ∧
      Leads selector factor ∧ containsKeyword selector .fromPeer = true ∧
      ∃ tail, factor = clause .fromPeer tail ∧ containsKeyword tail .fromPeer = false := by
  intro inside text selector factor result
  have hgroup : LeadingGroup (trim text) inside :=
    ⟨isGroup_of_wellNested (by decide), by decide +kernel, by decide +kernel⟩
  have hresult : decompose text false = result := by decide +kernel
  have hfrom : containsKeyword selector .fromPeer = true := by decide +kernel
  have hcut : CutAtLast .fromPeer selector [] "FROM".toList " AS1 TO AS2 ".toList :=
    ⟨⟨⟨.inl (isWord_name .fromPeer), apart_nil_left _, apart_cons _ _ (by decide)⟩, rfl,
      by decide⟩, by decide +kernel⟩
  have hleads : Leads selector factor := .fromPeer hcut
  obtain ⟨hdecomposes, hnested, hrefined, hnames⟩ := decompose_eq_iff text false
  obtain ⟨tail, htail⟩ := hnames selector factor hleads
  rw [if_pos hfrom] at htail
  exact ⟨hgroup, hnested inside hgroup, .group hgroup, hrefined _ (.group hgroup), hresult,
    (hdecomposes result).1 hresult, hleads, hfrom, tail, htail⟩

end Decomposition

end RoutingPolicy
