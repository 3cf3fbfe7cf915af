import RoutingPolicy.Proofs.Rule.Expression
import RoutingPolicy.Proofs.Rule.Placeholder

/-!
# Blanks between tokens

Texts that have the same tokens differ in nothing but the blanks between and around the tokens. A
rule is cut at tokens, and if two such texts are cut at the same tokens, then what is cut out has
the same tokens again. Each step of a reader is told by a relation without positions, so it is
enough to carry these relations from one text to the other. In the end only the filter is returned
as it is written.

The family of a multiprotocol rule is looked for by characters instead of tokens, so the results
about whole rules are for the other rules.
-/

namespace RoutingPolicy

open Text

/-- The texts have the same tokens in the same order. The text of a token tells its kind. -/
def Respaced (text other : Text) : Prop := lexemes text = lexemes other

instance (text other : Text) : Decidable (Respaced text other) :=
  inferInstanceAs (Decidable (lexemes text = lexemes other))

/-! ### Cuts -/

section Cuts

variable {keyword : Keyword} {text other before word after : Text}

theorem Respaced.containsKeyword_eq (hother : Respaced text other) (keyword : Keyword) :
    containsKeyword text keyword = containsKeyword other keyword := by
  rw [containsKeyword_eq_any, containsKeyword_eq_any, hother]

theorem Respaced.trim_trim (hother : Respaced text other) : Respaced (trim text) (trim other) := by
  rw [Respaced, lexemes_trim, lexemes_trim, hother]

theorem Respaced.clause (hother : Respaced text other) (keyword : Keyword) :
    Respaced (Decomposition.clause keyword text) (Decomposition.clause keyword other) := by
  rw [Respaced, Decomposition.lexemes_clause, Decomposition.lexemes_clause, hother]

theorem Respaced.exists_cut (hother : Respaced text other) (hcut : Cut before word after)
    (htext : text = before ++ word ++ after) : ∃ front behind, Cut front word behind ∧
      other = front ++ word ++ behind ∧ Respaced before front ∧ Respaced after behind := by
  rw [Respaced, htext, hcut.lexemes_eq] at hother
  obtain ⟨front, behind, hfound, heq, hfront, hbehind⟩ := exists_cut_of_lexemes_eq hother.symm
  exact ⟨front, behind, hfound, heq, hfront.symm, hbehind.symm⟩

theorem Respaced.exists_cutAt (hother : Respaced text other)
    (hcut : CutAt keyword text before word after) : ∃ front behind,
      CutAt keyword other front word behind ∧ Respaced before front ∧ Respaced after behind := by
  obtain ⟨front, behind, hfound, heq, hfront, hbehind⟩ := hother.exists_cut hcut.cut hcut.eq_append
  exact ⟨front, behind, ⟨hfound, heq, hcut.ofWord?⟩, hfront, hbehind⟩

theorem Respaced.exists_cutAtFirst (hother : Respaced text other)
    (hcut : CutAtFirst keyword text before word after) : ∃ front behind,
      CutAtFirst keyword other front word behind ∧ Respaced before front ∧ Respaced after behind := by
  obtain ⟨front, behind, hfound, hfront, hbehind⟩ := hother.exists_cutAt hcut.toCutAt
  refine ⟨front, behind, ⟨hfound, ?_⟩, hfront, hbehind⟩
  rw [← hfront.containsKeyword_eq, hcut.before_eq_false]

theorem Respaced.exists_cutAtLast (hother : Respaced text other)
    (hcut : CutAtLast keyword text before word after) : ∃ front behind,
      CutAtLast keyword other front word behind ∧ Respaced before front ∧ Respaced after behind := by
  obtain ⟨front, behind, hfound, hfront, hbehind⟩ := hother.exists_cutAt hcut.toCutAt
  refine ⟨front, behind, ⟨hfound, ?_⟩, hfront, hbehind⟩
  rw [← hbehind.containsKeyword_eq, hcut.after_eq_false]

/-- A trimmed text begins with its first token. -/
theorem Text.Trimmed.before_eq_nil (htext : Trimmed (before ++ after))
    (hbefore : lexemes before = []) : before = [] := by
  cases before with
  | nil => rfl
  | cons c before => exact absurd hbefore (lexemes_ne_nil List.mem_cons_self (htext.1 c rfl))

/-- A trimmed text ends with its last token. -/
theorem Text.Trimmed.after_eq_nil (htext : Trimmed (before ++ after))
    (hafter : lexemes after = []) : after = [] := by
  by_contra hne
  obtain ⟨c, hc⟩ := Option.ne_none_iff_exists'.1 (mt List.getLast?_eq_none_iff.1 hne)
  have hblank : isBlank c = false :=
    htext.2 c (by rw [List.getLast?_append_of_ne_nil before hne, hc]; rfl)
  exact lexemes_ne_nil (List.mem_of_getLast? hc) hblank hafter

theorem Text.Trimmed.eq_of_lexemes_eq (htext : Trimmed text) (hlexemes : lexemes text = [word]) :
    text = word := by
  obtain ⟨before, after, -, rfl, hbefore, hafter⟩ :=
    @exists_cut_of_lexemes_eq text word [] [] hlexemes
  obtain rfl := htext.after_eq_nil hafter
  rw [List.append_nil] at htext ⊢
  rw [htext.before_eq_nil hbefore, List.nil_append]

end Cuts

/-! ### The part that counts -/

namespace Decomposition

variable {rule other inside part : Text}

theorem refined_of_respaced (hother : Respaced rule other) : Refined rule ↔ Refined other := by
  rw [Refined, Refined, hother]

theorem wellNested_of_respaced (hother : Respaced rule other) :
    WellNested rule ↔ WellNested other := by
  rw [WellNested, WellNested, ← depth?_lexemes, ← depth?_lexemes 0 other, hother]

theorem count_of_respaced (hother : Respaced rule other) {c : Char} (hc : isDelimiter c = true) :
    rule.count c = other.count c := by
  rw [← count_lexemes hc, ← count_lexemes hc, hother]

theorem LeadingGroup.exists_respaced (hgroup : LeadingGroup rule inside)
    (hother : Respaced rule other) (htrimmed : Trimmed other) :
    ∃ content, LeadingGroup other content ∧ Respaced inside content := by
  obtain ⟨rest, hrule⟩ := hgroup.isPrefix
  have hopen : Cut [] ['{'] (inside ++ ['}'] ++ rest) := cut_delimiter (by decide) [] _
  have hclose : Cut inside ['}'] rest := cut_delimiter (by decide) inside rest
  obtain ⟨front, behind, -, heq, hfront, hbehind⟩ := hother.exists_cut hopen (by simp [← hrule])
  obtain ⟨content, later, -, rfl, hinside, -⟩ := hbehind.exists_cut hclose rfl
  -- a trimmed rule has nothing in front of the brace that opens the group
  rw [heq, List.append_assoc] at htrimmed
  rw [htrimmed.before_eq_nil (hfront.symm.trans lexemes_nil)] at heq
  refine ⟨content, ⟨isGroup_of_wellNested ?_, ⟨later, by simp [heq]⟩, ?_⟩, hinside⟩
  · exact (wellNested_of_respaced hinside).1 (wellNested_of_isGroup hgroup.isGroup)
  · exact mt (refined_of_respaced hinside).2 hgroup.not_refined

theorem Counts.exists_respaced (hpart : Counts rule part) (hother : Respaced rule other)
    (hrule : Trimmed rule) (htrimmed : Trimmed other) :
    ∃ counting, Counts other counting ∧ Respaced part counting := by
  have hnone (hgroup : ∀ inside, ¬LeadingGroup rule inside) (content : Text) :
      ¬LeadingGroup other content := by
    intro hcontent
    obtain ⟨inside, hinside, -⟩ := hcontent.exists_respaced hother.symm hrule
    exact hgroup inside hinside
  cases hpart with
  | group hgroup =>
    obtain ⟨content, hcontent, hinside⟩ := hgroup.exists_respaced hother htrimmed
    exact ⟨trim content, .group hcontent, hinside.trim_trim⟩
  | refined hgroup hcut heq hends hbefore =>
    obtain ⟨front, behind, hfound, heqOther, hfront, -⟩ := hother.exists_cut hcut heq
    have hnot : ¬Refined front := mt (refined_of_respaced hfront).2 hbefore
    exact ⟨trim front, .refined (hnone hgroup) hfound heqOther hends hnot, hfront.trim_trim⟩
  | whole hgroup hrefined hcount =>
    rw [count_of_respaced hother (by decide), count_of_respaced hother (by decide)] at hcount
    have hnot : ¬Refined other := mt (refined_of_respaced hother).2 hrefined
    exact ⟨other, .whole (hnone hgroup) hnot hcount, hother⟩

/-! ### Selector, filter clause and factor -/

variable {selector factor : Text} {filterClause : Option Text} {isDefault : Bool}

theorem Divides.exists_respaced (hdivides : Divides part isDefault selector filterClause)
    (hother : Respaced part other) : ∃ front clause, Divides other isDefault front clause ∧
      Respaced selector front ∧ Option.Rel Respaced filterClause clause := by
  cases hdivides with
  | filter hpreferred hmissing hcut =>
    obtain ⟨front, behind, hfound, hfront, hbehind⟩ := hother.exists_cutAtFirst hcut
    have hnone (keyword : Keyword) (hmem : keyword ∈ _) :=
      (hother.containsKeyword_eq keyword).symm.trans (hmissing keyword hmem)
    exact ⟨front, _, .filter hpreferred hnone hfound, hfront, .some (hbehind.trim_trim.clause _)⟩
  | missing hmissing =>
    have hnone (keyword : Keyword) (hmem : keyword ∈ _) :=
      (hother.containsKeyword_eq keyword).symm.trans (hmissing keyword hmem)
    refine ⟨other, _, .missing hnone, hother, ?_⟩
    cases isDefault with
    | true => exact .some rfl
    | false => exact .none

theorem Leads.exists_respaced (hleads : Leads selector factor) (hother : Respaced selector other) :
    ∃ leading, Leads other leading ∧ Respaced factor leading := by
  cases hleads with
  | fromPeer hcut =>
    obtain ⟨front, behind, hfound, -, hbehind⟩ := hother.exists_cutAtLast hcut
    exact ⟨_, .fromPeer hfound, hbehind.trim_trim.clause .fromPeer⟩
  | toPeer hfrom hcut =>
    obtain ⟨front, behind, hfound, -, hbehind⟩ := hother.exists_cutAtLast hcut
    rw [hother.containsKeyword_eq] at hfrom
    exact ⟨_, .toPeer hfrom hfound, hbehind.trim_trim.clause .toPeer⟩

end Decomposition

/-! ### Results -/

/-- Two readers succeed with related values, or both fail with errors of one kind. -/
inductive Corresponds {α : Type} (related : α → α → Prop) :
    Except RuleError α → Except RuleError α → Prop
  | ok {value other : α} (hrelated : related value other) :
      Corresponds related (.ok value) (.ok other)
  | error {first second : RuleError} (hkind : first.SameKind second) :
      Corresponds related (.error first) (.error second)

theorem Corresponds.map {α β : Type} {related : α → α → Prop} {relatedImage : β → β → Prop}
    {first second : Except RuleError α} (hresults : Corresponds related first second) {f g : α → β}
    (himage : ∀ value other, related value other → relatedImage (f value) (g other)) :
    Corresponds relatedImage (first.map f) (second.map g) := by
  cases hresults with
  | ok hrelated => exact .ok (himage _ _ hrelated)
  | error hkind => exact .error hkind

/-- Two decompositions into the same tokens. -/
structure Decomposition.Alike (parts other : Decomposition) : Prop where
  factor : Respaced parts.factor other.factor
  filterClause : Option.Rel Respaced parts.filterClause other.filterClause

/-- The same subject, and filters of the same tokens, which are both the filter for any route or
both another one. -/
structure Factor.Alike (factor other : Factor) : Prop where
  subject : factor.subject = other.subject
  filter : Respaced factor.filter other.filter
  filter_eq_any : factor.filter = anyFilter ↔ other.filter = anyFilter

structure ParsedRule.Alike (rule other : ParsedRule) : Prop where
  family : rule.family = other.family
  direction : rule.direction = other.direction
  multiprotocol : rule.multiprotocol = other.multiprotocol
  factor : rule.factor.Alike other.factor

theorem Decomposition.decompose_respaced {text other : Text} (hother : Respaced text other)
    (isDefault : Bool) :
    Corresponds Alike (decompose text isDefault) (decompose other isDefault) := by
  have hrule := hother.trim_trim
  obtain ⟨result, hresult⟩ := exists_decomposes text isDefault
  rw [decompose_of_decomposes hresult]
  cases hresult with
  | unbalanced hnone =>
    have hnoneOther (part : Text) : ¬Counts (trim other) part := by
      intro hpart
      obtain ⟨counting, hcounting, -⟩ :=
        hpart.exists_respaced hrule.symm (trimmed_trim other) (trimmed_trim text)
      exact hnone counting hcounting
    rw [decompose_of_decomposes (.unbalanced hnoneOther)]
    exact .error trivial
  | missingFactor hcounts hdivides hfrom hto =>
    obtain ⟨counting, hcounting, hpart⟩ :=
      hcounts.exists_respaced hrule (trimmed_trim text) (trimmed_trim other)
    obtain ⟨front, clause, hsplit, hfront, -⟩ := hdivides.exists_respaced hpart
    rw [hfront.containsKeyword_eq] at hfrom hto
    rw [decompose_of_decomposes (.missingFactor hcounting hsplit hfrom hto)]
    exact .error trivial
  | parts hcounts hdivides hleads =>
    obtain ⟨counting, hcounting, hpart⟩ :=
      hcounts.exists_respaced hrule (trimmed_trim text) (trimmed_trim other)
    obtain ⟨front, clause, hsplit, hfront, hclause⟩ := hdivides.exists_respaced hpart
    obtain ⟨leading, hleading, hfactor⟩ := hleads.exists_respaced hfront
    rw [decompose_of_decomposes (.parts hcounting hsplit hleading)]
    exact .ok ⟨hfactor, hclause⟩

/-! ### Subject and filter -/

namespace Factor

variable {text other : Text}

/-- Only a token at the end can be lost with the final semicolon. -/
theorem lexemes_dropSemicolon (htext : Trimmed text) : lexemes (dropSemicolon text) =
    if (lexemes text).getLast? = some [';'] then (lexemes text).dropLast else lexemes text := by
  unfold dropSemicolon
  split
  next hlast =>
    obtain ⟨front, rfl⟩ := List.getLast?_eq_some_iff.1 hlast
    have hlexemes := lexemes_append_semicolon (List.forall_mem_nil _) front
    rw [List.append_nil] at hlexemes
    rw [hlexemes, List.getLast?_concat, if_pos rfl, List.dropLast_concat, List.dropLast_concat,
      lexemes_trimEnd]
  next hlast =>
    rw [← trimEnd_of_getLast? htext.2] at hlast
    rw [if_neg (getLast?_lexemes_of_trimEnd hlast)]

theorem joined_respaced {factor filterClause otherFactor otherClause : Text}
    (hfactor : Respaced factor otherFactor) (hclause : Respaced filterClause otherClause) :
    Respaced (joined factor filterClause) (joined otherFactor otherClause) := by
  rw [Respaced, joined, joined, lexemes_dropSemicolon (trimmed_trim _),
    lexemes_dropSemicolon (trimmed_trim _), lexemes_trim, lexemes_trim, lexemes_separated,
    lexemes_separated, hfactor, hclause]

theorem FilterBehind.exists_respaced {boundary : Keyword} {filter : Text}
    (hfilter : FilterBehind boundary text filter) (hother : Respaced text other) :
    ∃ written, FilterBehind boundary other written ∧ Respaced filter written := by
  cases hfilter with
  | cut hcut hbefore hafter hlast =>
    obtain ⟨front, behind, hfound, hfront, hbehind⟩ := hother.exists_cutAt hcut
    rw [hfront] at hbefore
    rw [hbehind] at hafter hlast
    exact ⟨trim behind, .cut hfound hbefore hafter hlast, hbehind.trim_trim⟩

theorem eq_anyFilter_iff {filter : Text} (hfilter : Trimmed filter) :
    filter = anyFilter ↔ lexemes filter = [anyFilter] := by
  refine ⟨?_, hfilter.eq_of_lexemes_eq⟩
  rintro rfl
  exact lexemes_anyFilter

theorem alike_of_filterBehind {boundary : Keyword} {subject filter written : Text}
    (hfilter : FilterBehind boundary text filter) (hwritten : FilterBehind boundary other written)
    (hrespaced : Respaced filter written) : Alike ⟨subject, filter⟩ ⟨subject, written⟩ := by
  refine ⟨rfl, hrespaced, ?_⟩
  rw [eq_anyFilter_iff hfilter.solid.trimmed, eq_anyFilter_iff hwritten.solid.trimmed, hrespaced]

theorem alike_refl (factor : Factor) : factor.Alike factor :=
  ⟨rfl, rfl, Iff.rfl⟩

theorem Reads.exists_respaced {result : Factor} (hreads : Reads text result)
    (hother : Respaced text other) : ∃ found, Reads other found ∧ result.Alike found := by
  cases hreads with
  | alone hlexemes hlead hsubject =>
    rw [hother] at hlexemes
    exact ⟨_, .alone hlexemes hlead hsubject, alike_refl _⟩
  | accept hlexemes hlead hsubject hfilter =>
    obtain ⟨written, hwritten, hrespaced⟩ := hfilter.exists_respaced hother
    rw [hother] at hlexemes
    exact ⟨_, .accept hlexemes hlead hsubject hwritten,
      alike_of_filterBehind hfilter hwritten hrespaced⟩
  | announce hlexemes hlead hsubject hfilter =>
    obtain ⟨written, hwritten, hrespaced⟩ := hfilter.exists_respaced hother
    rw [hother] at hlexemes
    exact ⟨_, .announce hlexemes hlead hsubject hwritten,
      alike_of_filterBehind hfilter hwritten hrespaced⟩
  | networks hlexemes hlead hsubject hannounce hfilter =>
    obtain ⟨written, hwritten, hrespaced⟩ := hfilter.exists_respaced hother
    rw [hother] at hlexemes
    exact ⟨_, .networks hlexemes hlead hsubject hannounce hwritten,
      alike_of_filterBehind hfilter hwritten hrespaced⟩
  | unfiltered hlexemes hlead hsubject hne hannounce hnetworks =>
    rw [hother] at hlexemes
    exact ⟨_, .unfiltered hlexemes hlead hsubject hne hannounce hnetworks, alike_refl _⟩

theorem read_respaced {factor filterClause otherFactor otherClause : Text}
    (hfactor : Respaced factor otherFactor) (hclause : Respaced filterClause otherClause) :
    Corresponds Alike (read factor filterClause) (read otherFactor otherClause) := by
  have hjoined := joined_respaced hfactor hclause
  by_cases hfits : Fits (lexemes (joined factor filterClause))
  · obtain ⟨result, hreads⟩ := exists_reads_iff.2 hfits
    obtain ⟨found, hfound, halike⟩ := hreads.exists_respaced hjoined
    rw [read_of_reads hreads, read_of_reads hfound]
    exact .ok halike
  · have hfitsOther := hfits
    rw [hjoined] at hfitsOther
    rw [read_of_not_fits hfits, read_of_not_fits hfitsOther]
    exact .error trivial

end Factor

namespace ParsedRule

variable {text other : Text}

theorem getD_respaced {filterClause otherClause : Option Text}
    (hclause : Option.Rel Respaced filterClause otherClause) :
    Respaced (filterClause.getD []) (otherClause.getD []) := by
  cases hclause with
  | none => rfl
  | some hclause => exact hclause

theorem factorOf_respaced (hother : Respaced text other) (isDefault : Bool) :
    Corresponds Factor.Alike (factorOf text isDefault) (factorOf other isDefault) := by
  have hparts := Decomposition.decompose_respaced hother isDefault
  unfold factorOf
  generalize decompose text isDefault = first at hparts ⊢
  generalize decompose other isDefault = second at hparts ⊢
  cases hparts with
  | error hkind => exact .error hkind
  | ok halike => exact Factor.read_respaced halike.factor (getD_respaced halike.filterClause)

theorem read_respaced (hother : Respaced text other) {context : Context}
    (hcontext : context.multiprotocol = false) :
    Corresponds Alike (read text context) (read other context) := by
  have hsplit (rule : Text) : splitFamily rule context = (.ipv4Unicast, rule) := by
    rw [splitFamily, hcontext, if_neg Bool.false_ne_true]
  rw [read_eq, read_eq, hsplit, hsplit]
  exact (factorOf_respaced hother context.isDefault).map fun _ _ halike => ⟨rfl, rfl, rfl, halike⟩

end ParsedRule

/-! ### Actions -/

namespace ActionList

variable {text other clause : Text} {boundary : Keyword}

theorem HasClause.exists_respaced (hclause : HasClause boundary text clause)
    (hother : Respaced text other) :
    ∃ written, HasClause boundary other written ∧ Respaced clause written := by
  cases hclause with
  | bounded haction hboundary =>
    obtain ⟨front, rest, hfound, -, hrest⟩ := hother.exists_cutAtFirst haction
    obtain ⟨written, behind, hend, hwritten, -⟩ := hrest.exists_cutAtLast hboundary
    exact ⟨written, .bounded hfound hend, hwritten⟩
  | unbounded haction hboundary =>
    obtain ⟨front, rest, hfound, -, hrest⟩ := hother.exists_cutAtFirst haction
    rw [hrest.containsKeyword_eq] at hboundary
    exact ⟨rest, .unbounded hfound hboundary, hrest⟩

/-- The characters of statements that count are those of the tokens. -/
theorem ofStatements_respaced (hother : Respaced text other) (sequence : Nat) :
    Action.ofStatements sequence (splitOn ';' text) =
      Action.ofStatements sequence (splitOn ';' other) := by
  have hfilter (clause : Text) : clause.filter Action.isSignificant =
      (lexemes clause).flatten.filter Action.isSignificant := by
    rw [flatten_lexemes, List.filter_filter]
    congr 1
    funext c
    unfold Action.isSignificant
    cases isBlank c <;> simp
  rw [← Action.ofStatements_splitOn_filter, hfilter, hother, ← hfilter,
    Action.ofStatements_splitOn_filter]

theorem ofRule?_respaced (hother : Respaced text other) (direction : Direction)
    (boundary : Keyword) : ofRule? text direction boundary = ofRule? other direction boundary := by
  cases haction : containsKeyword text .action with
  | true =>
    obtain ⟨clause, hclause⟩ := exists_hasClause haction boundary
    obtain ⟨written, hwritten, hrespaced⟩ := hclause.exists_respaced hother
    rw [ofRule?, ofRule?, clause?_of_hasClause hclause, clause?_of_hasClause hwritten,
      Option.map_some, Option.map_some, ofStatements_respaced hrespaced]
  | false =>
    have hnone : ofRule? text direction boundary = none := by
      rw [← Option.not_isSome_iff_eq_none, isSome_ofRule?, haction]
      exact Bool.false_ne_true
    have hnoneOther : ofRule? other direction boundary = none := by
      rw [← Option.not_isSome_iff_eq_none, isSome_ofRule?, ← hother.containsKeyword_eq, haction]
      exact Bool.false_ne_true
    rw [hnone, hnoneOther]

end ActionList

/-- Blanks between and around the tokens of a rule make a difference only within its filter. Two
rules that are not multiprotocol and have the same tokens are both read or both refused for the same
cause, and name the same subject. Router addresses and actions are the same for rules of any kind.
-/
theorem readings_of_respaced {text other : Text} (hother : Respaced text other) :
    (∀ context : Context, context.multiprotocol = false →
      Corresponds ParsedRule.Alike (ParsedRule.read text context) (ParsedRule.read other context)) ∧
    (∀ multiprotocol,
      AddressPair.ofRule? text multiprotocol = AddressPair.ofRule? other multiprotocol) ∧
    ∀ direction boundary,
      ActionList.ofRule? text direction boundary = ActionList.ofRule? other direction boundary :=
  ⟨fun _ hcontext => ParsedRule.read_respaced hother hcontext,
    AddressPair.ofRule?_of_lexemes_eq hother, ActionList.ofRule?_respaced hother⟩

/-- An import in a group, close together and wide apart. -/
theorem readings_of_respaced_group :
    let text := "{FROM AS1 10.0.0.2 AT 10.0.0.1 ACTION pref=1;ACCEPT {10.0.0.0/8} AND AS-A;}".toList
    let other :=
      "\t{ FROM AS1 10.0.0.2  AT 10.0.0.1 ACTION pref=1 ; ACCEPT { 10.0.0.0/8 }  AND AS-A ; }\n".toList
    Respaced text other ∧
      Corresponds ParsedRule.Alike (ParsedRule.read text (.importing false))
        (ParsedRule.read other (.importing false)) ∧
      AddressPair.ofRule? text false = AddressPair.ofRule? other false ∧
      ActionList.ofRule? text .incoming .accept = ActionList.ofRule? other .incoming .accept := by
  intro text other
  have hother : Respaced text other := by decide +kernel
  obtain ⟨hread, haddresses, hactions⟩ := readings_of_respaced hother
  exact ⟨hother, hread (.importing false) rfl, haddresses false, hactions .incoming .accept⟩

end RoutingPolicy
