import RoutingPolicy.Proofs.Rule.Factor
import RoutingPolicy.Proofs.Rule.FilterNesting
import RoutingPolicy.Proofs.Rule.Semicolon

/-!
# Subject and filter in front of a semicolon

When factor and filter clause are joined, a semicolon at the end is dropped. Only where a default rule
has no filter does the placeholder for it get behind the semicolon, and then it makes a difference to a
rule that breaks off at `FROM` or `TO`: its subject is the placeholder, or there is none.
-/

namespace RoutingPolicy

open Text

/-! ### Results up to wording -/

/-- Two causes of one kind, whatever text they quote. -/
def RuleError.SameKind : RuleError → RuleError → Prop
  | unbalancedBraces _, unbalancedBraces _ => True
  | missingFactor _ _, missingFactor _ _ => True
  | unmatchedFactor _, unmatchedFactor _ => True
  | _, _ => False

theorem RuleError.sameKind_refl (error : RuleError) : error.SameKind error := by
  cases error <;> trivial

/-- The same value, or errors of one kind. -/
inductive SameResult {α : Type} : Except RuleError α → Except RuleError α → Prop
  | ok (value : α) : SameResult (.ok value) (.ok value)
  | error {first second : RuleError} (hkind : first.SameKind second) :
      SameResult (.error first) (.error second)

namespace SameResult

variable {α β : Type}

theorem refl (result : Except RuleError α) : SameResult result result := by
  cases result with
  | error error => exact .error error.sameKind_refl
  | ok value => exact .ok value

theorem map {first second : Except RuleError α} (hsame : SameResult first second) (f : α → β) :
    SameResult (first.map f) (second.map f) := by
  cases hsame with
  | ok value => exact .ok (f value)
  | error hkind => exact .error hkind

theorem eq_ok {result : Except RuleError α} {value : α} (hsame : SameResult result (.ok value)) :
    result = .ok value := by
  cases hsame
  rfl

theorem eq_error {result : Except RuleError α} {error : RuleError}
    (hsame : SameResult result (.error error)) :
    ∃ other, result = .error other ∧ other.SameKind error := by
  cases hsame with
  | error hkind => exact ⟨_, rfl, hkind⟩

end SameResult

/-! ### Subject and filter -/

namespace Factor

variable {blanks : Text}

theorem dropSemicolon_trim (hblanks : ∀ c ∈ blanks, isBlank c = true) {text : Text}
    (hlast : (lexemes text).getLast? ≠ some [';']) :
    dropSemicolon (trim (text ++ blanks ++ [';'])) = dropSemicolon (trim text) := by
  obtain ⟨more, hmore, htrim⟩ := trim_append_semicolon hblanks text
  rw [htrim, dropSemicolon, if_pos List.getLast?_concat, List.dropLast_concat,
    trimEnd_append_right _ hmore, trimEnd_of_getLast? (trimmed_trim text).2,
    dropSemicolon_of_getLast? (getLast?_trim_of_lexemes hlast)]

theorem joined_append_semicolon (hblanks : ∀ c ∈ blanks, isBlank c = true) (factor : Text)
    {filterClause : Text} (hne : lexemes filterClause ≠ [])
    (hlast : (lexemes filterClause).getLast? ≠ some [';']) :
    joined factor (filterClause ++ blanks ++ [';']) = joined factor filterClause := by
  have hend : (lexemes (factor ++ [' '] ++ filterClause)).getLast? ≠ some [';'] := by
    rwa [lexemes_separated, List.getLast?_append_of_ne_nil _ hne]
  rw [joined, ← List.append_assoc, ← List.append_assoc, dropSemicolon_trim hblanks hend, joined]

theorem joined_semicolon_nil (hblanks : ∀ c ∈ blanks, isBlank c = true) {factor : Text}
    (hlast : (lexemes factor).getLast? ≠ some [';']) :
    joined (factor ++ blanks ++ [';']) [] = joined factor [] := by
  rw [joined, joined, List.append_nil, List.append_nil, trim_append_space, trim_append_space,
    dropSemicolon_trim hblanks hlast]

/-- What a form makes of tokens among which there is no keyword for a filter. -/
def Form.withoutFilter? (form : Form) : List Text → Option Factor
  | lead :: subject :: tail =>
    if Token.Kind.ofText lead = .keyword form.lead ∧ Token.Kind.ofText subject = .word ∧
        (tail = [] ∨ form.openTail = true) then some (any subject)
    else none
  | _ => none

theorem read?_eq_withoutFilter? (form : Form) {text : Text}
    (hnone : ∀ lexeme ∈ lexemes text, Token.Kind.ofText lexeme ≠ .keyword form.boundary) :
    form.read? text (tokenize text) = form.withoutFilter? (lexemes text) := by
  unfold lexemes at hnone ⊢
  generalize tokenize text = tokens at hnone
  match tokens with
  | [] => rfl
  | [lead] => rfl
  | lead :: subject :: tail =>
    have hlast : Token.last? form.boundary tail.dropLast = none := by
      have hnil : tail.dropLast.filter (Token.isKeyword form.boundary) = [] := by
        refine List.filter_eq_nil_iff.2 fun token htoken => ?_
        have hmem : token ∈ lead :: subject :: tail := by simp [List.dropLast_subset _ htoken]
        simpa [Token.isKeyword, Token.kind] using hnone _ (List.mem_map_of_mem hmem)
      rw [Token.last?, hnil, List.getLast?_nil]
    simp only [Form.read?, List.map_cons, Form.withoutFilter?, Bool.and_eq_true, Token.isKeyword,
      Token.kind, beq_iff_eq, hlast, List.map_eq_nil_iff]
    by_cases hlead : Token.Kind.ofText lead.text = .keyword form.lead ∧
        Token.Kind.ofText subject.text = .word
    · by_cases htail : tail = [] <;> simp [hlead, htail]
    · rw [if_neg hlead, if_neg fun hall => hlead ⟨hall.1, hall.2.1⟩]

theorem read_of_withoutFilter? {factor filterClause : Text}
    (hnone : ∀ lexeme ∈ lexemes (joined factor filterClause), ¬IntroducesFilter lexeme) :
    read factor filterClause =
      match forms.findSome? (·.withoutFilter? (lexemes (joined factor filterClause))) with
      | some result => .ok result
      | none => .error (.unmatchedFactor (joined factor filterClause)) := by
  have hforms : ∀ form ∈ forms, form.boundary ∈ Decomposition.filterKeywords := by decide
  have hform : ∀ form ∈ forms, form.read? (joined factor filterClause)
      (tokenize (joined factor filterClause)) =
        form.withoutFilter? (lexemes (joined factor filterClause)) := by
    refine fun form hform => read?_eq_withoutFilter? form fun lexeme hmem hkind => ?_
    exact hnone lexeme hmem
      ⟨form.boundary, hforms form hform, Token.Kind.ofText_eq_keyword_iff.1 hkind⟩
  have hfind : forms.findSome? (fun form => form.read? (joined factor filterClause)
      (tokenize (joined factor filterClause))) =
        forms.findSome? (·.withoutFilter? (lexemes (joined factor filterClause))) := by
    simp only [forms, List.forall_mem_cons] at hform
    simp only [forms, List.findSome?_cons, List.findSome?_nil, hform]
  cases hfound : forms.findSome? (·.withoutFilter? (lexemes (joined factor filterClause))) with
  | none =>
    rw [hfound] at hfind
    rw [read]
    simp only [hfind]
  | some result =>
    rw [hfound] at hfind
    rw [read]
    simp only [hfind]

/-- The placeholder for a filter separates what stands before it from the end. -/
theorem lexemes_joined_anyFilter (factor : Text) :
    lexemes (joined factor anyFilter) = lexemes factor ++ [anyFilter] := by
  obtain ⟨final, hfinal, hlexemes⟩ := lexemes_joined factor anyFilter
  rw [lexemes_anyFilter] at hlexemes
  rcases hfinal with rfl | rfl
  · rw [hlexemes, List.append_nil]
  · have hlast := congrArg List.getLast? hlexemes
    rw [List.getLast?_concat, List.getLast?_concat] at hlast
    exact absurd hlast (by decide)

section Placeholder

variable (hblanks : ∀ c ∈ blanks, isBlank c = true) {factor subject : Text} {lead : Keyword}
  {rest : List Text}

include hblanks

/-- With a subject in front of it, a semicolon is one more token in front of the placeholder. -/
theorem read_anyFilter_semicolon (hlexemes : lexemes factor = lead.name :: subject :: rest)
    (hnone : ∀ lexeme ∈ lexemes factor, ¬IntroducesFilter lexeme) :
    SameResult (read (factor ++ blanks ++ [';']) anyFilter) (read factor anyFilter) := by
  have hmore : ∀ lexeme ∈ [[';'], anyFilter], ¬IntroducesFilter lexeme := by decide
  have hplain := lexemes_joined_anyFilter factor
  have hbehind := lexemes_joined_anyFilter (factor ++ blanks ++ [';'])
  rw [lexemes_append_semicolon hblanks, List.append_assoc (lexemes factor),
    List.singleton_append] at hbehind
  have hsame (form : Form) : form.withoutFilter? (lexemes factor ++ [[';'], anyFilter]) =
      form.withoutFilter? (lexemes factor ++ [anyFilter]) := by
    rw [hlexemes]
    simp [Form.withoutFilter?]
  have hnonePlain : ∀ lexeme ∈ lexemes (joined factor anyFilter), ¬IntroducesFilter lexeme := by
    rw [hplain]
    exact List.forall_mem_append.2 ⟨hnone, List.forall_mem_singleton.2 (hmore _ (by simp))⟩
  have hnoneBehind : ∀ lexeme ∈ lexemes (joined (factor ++ blanks ++ [';']) anyFilter),
      ¬IntroducesFilter lexeme := by
    rw [hbehind]
    exact List.forall_mem_append.2 ⟨hnone, hmore⟩
  rw [read_of_withoutFilter? hnonePlain, read_of_withoutFilter? hnoneBehind, hplain, hbehind]
  simp only [hsame]
  cases forms.findSome? (·.withoutFilter? (lexemes factor ++ [anyFilter])) with
  | none => exact .error trivial
  | some result => exact .ok result

omit hblanks in
/-- Without a subject the placeholder is taken for one. -/
theorem read_anyFilter_of_lead (hlead : lead = .fromPeer ∨ lead = .toPeer)
    (hlexemes : lexemes factor = [lead.name]) : read factor anyFilter = .ok (any anyFilter) := by
  have hplain := lexemes_joined_anyFilter factor
  rw [hlexemes] at hplain
  have hnone : ∀ lexeme ∈ lexemes (joined factor anyFilter), ¬IntroducesFilter lexeme := by
    rw [hplain]
    rcases hlead with rfl | rfl <;> decide
  have hfound : forms.findSome? (·.withoutFilter? ([lead.name] ++ [anyFilter])) =
      some (any anyFilter) := by
    rcases hlead with rfl | rfl <;> decide
  rw [read_of_withoutFilter? hnone, hplain, hfound]

/-- The semicolon is in the place of the subject and is none. -/
theorem read_anyFilter_semicolon_of_lead (hlead : lead = .fromPeer ∨ lead = .toPeer)
    (hlexemes : lexemes factor = [lead.name]) :
    read (factor ++ blanks ++ [';']) anyFilter =
      .error (.unmatchedFactor (joined (factor ++ blanks ++ [';']) anyFilter)) := by
  have hbehind := lexemes_joined_anyFilter (factor ++ blanks ++ [';'])
  rw [lexemes_append_semicolon hblanks, hlexemes] at hbehind
  have hnone : ∀ lexeme ∈ lexemes (joined (factor ++ blanks ++ [';']) anyFilter),
      ¬IntroducesFilter lexeme := by
    rw [hbehind]
    rcases hlead with rfl | rfl <;> decide
  have hfound : forms.findSome? (·.withoutFilter? ([lead.name] ++ [[';']] ++ [anyFilter])) =
      none := by
    rcases hlead with rfl | rfl <;> decide
  rw [read_of_withoutFilter? hnone, hbehind, hfound]

end Placeholder

end Factor

/-! ### The whole rule -/

theorem Decomposition.not_introducesFilter_of_filterToken? {text : Text}
    (hfilter : filterToken? (tokenize text) = none) {lexeme : Text} (hmem : lexeme ∈ lexemes text) :
    ¬IntroducesFilter lexeme := by
  rintro ⟨keyword, hkeyword, hword⟩
  obtain ⟨token, htoken, rfl⟩ := List.mem_map.1 hmem
  have hnone := List.findSome?_eq_none_iff.1 hfilter keyword hkeyword
  have hfind := List.find?_eq_none.1 (Option.map_eq_none_iff.1 hnone) token htoken
  refine hfind ?_
  rw [Token.isKeyword, Token.kind, Token.Kind.ofText_eq_keyword_iff.2 hword, beq_self_eq_true]

namespace ParsedRule

/-- Subject and filter of a rule without its family. -/
def factorOf (body : Text) (isDefault : Bool) : Except RuleError Factor :=
  match decompose body isDefault with
  | .error error => .error error
  | .ok decomposition =>
    Factor.read decomposition.factor (decomposition.filterClause.getD [])

theorem read_eq (text : Text) (context : Context) :
    read text context = (factorOf (splitFamily text context).2 context.isDefault).map
      (⟨(splitFamily text context).1, context.direction, context.multiprotocol, ·⟩) := by
  unfold read factorOf
  simp only
  cases decompose (splitFamily text context).2 context.isDefault with
  | error error => rfl
  | ok decomposition =>
    simp only
    cases Factor.read decomposition.factor (decomposition.filterClause.getD []) <;> rfl

/-- As a default rule, the text has no filter and ends at the `FROM` or `TO` that its subject should
follow. -/
def BreaksOff (body : Text) : Prop :=
  Decomposition.expression? (trim body) = some (trim body) ∧
    ∃ lead : Keyword, decompose body true = .ok ⟨lead.name, some anyFilter⟩

section Whole

open Decomposition

variable {body blanks : Text} {isDefault : Bool} (hblanks : ∀ c ∈ blanks, isBlank c = true)
  (htrim : trim (body ++ [';']) = trim body ++ blanks ++ [';'])
  (hwhole : expression? (trim body) = some (trim body))
  (hbehind : expression? (trim body ++ blanks ++ [';']) = some (trim body ++ blanks ++ [';']))

include hblanks htrim hwhole hbehind

/-- Behind a filter keyword the semicolon ends the filter. -/
theorem factorOf_of_filterToken?_some (hlast : (lexemes body).getLast? ≠ some [';'])
    {keyword : Keyword} {token : Token}
    (hfilter : filterToken? (tokenize (trim body)) = some (keyword, token)) :
    SameResult (factorOf (body ++ [';']) isDefault) (factorOf body isDefault) := by
  obtain ⟨-, htoken⟩ := kind_of_filterToken? hfilter
  have hfilterBehind : filterToken? (tokenize (trim body ++ blanks ++ [';'])) =
      some (keyword, token) := by
    rw [tokenize_append_semicolon hblanks,
      filterToken?_append_semicolon _ (Token.kind_semicolon _), hfilter]
  have hselector : takeBytes token.start (trim body ++ blanks ++ [';']) =
      takeBytes token.start (trim body) := by
    rw [List.append_assoc, takeBytes_start_append htoken]
  have hrest : dropBytes token.stop (trim body ++ blanks ++ [';']) =
      dropBytes token.stop (trim body) ++ blanks ++ [';'] := by
    rw [List.append_assoc, dropBytes_stop_append htoken, ← List.append_assoc]
  obtain ⟨more, hmore, hclause⟩ :=
    clause_semicolon hblanks keyword (dropBytes token.stop (trim body))
  obtain ⟨before, hlexemes⟩ := lexemes_eq_append_dropBytes htoken
  rw [← lexemes_trim, hlexemes] at hlast
  unfold factorOf decompose
  simp only [htrim, hwhole, hbehind, splitFilter, hfilter, hfilterBehind, hselector, hrest, hclause]
  cases factor? (takeBytes token.start (trim body)) with
  | none => exact .error trivial
  | some factor =>
    have hjoined := Factor.joined_append_semicolon hmore factor (lexemes_clause_ne_nil keyword _)
      (getLast?_lexemes_clause keyword hlast)
    simp only [Option.getD_some, Factor.read, hjoined]
    exact .refl _

/-- Without a filter keyword the semicolon is part of the factor. -/
theorem factorOf_of_filterToken?_none (hlast : (lexemes body).getLast? ≠ some [';'])
    (hbreaks : ¬(isDefault = true ∧ BreaksOff body))
    (hfilter : filterToken? (tokenize (trim body)) = none) :
    SameResult (factorOf (body ++ [';']) isDefault) (factorOf body isDefault) := by
  have hfilterBehind : filterToken? (tokenize (trim body ++ blanks ++ [';'])) = none := by
    rw [tokenize_append_semicolon hblanks,
      filterToken?_append_semicolon _ (Token.kind_semicolon _), hfilter]
  rcases factor?_semicolon (trim body) hblanks with
    ⟨hnone, hnoneBehind⟩ | ⟨lead, before, word, after, hlead, hlexemes, hfactor, hfactorBehind⟩
  · unfold factorOf decompose
    simp only [htrim, hwhole, hbehind, splitFilter, hfilter, hfilterBehind, hnone, hnoneBehind]
    exact .error trivial
  obtain ⟨more, hmore, hclause⟩ := clause_semicolon hblanks lead after
  rw [hclause] at hfactorBehind
  rw [← lexemes_trim, hlexemes] at hlast
  have hend := getLast?_lexemes_clause lead hlast
  cases isDefault with
  | false =>
    have hjoined := Factor.joined_semicolon_nil hmore hend
    unfold factorOf decompose
    simp only [htrim, hwhole, hbehind, splitFilter, hfilter, hfilterBehind, hfactor, hfactorBehind]
    simp only [Bool.false_eq_true, if_false, Option.getD_none, Factor.read, hjoined]
    exact .refl _
  | true =>
    have hdecompose : decompose body true = .ok ⟨clause lead (trim after), some anyFilter⟩ := by
      unfold decompose
      simp only [hwhole, splitFilter, hfilter, hfactor, if_true]
    have hclauseLexemes : lexemes (clause lead (trim after)) = lead.name :: lexemes after := by
      rw [lexemes_clause, lexemes_trim]
    have hnone : ∀ lexeme ∈ lexemes (clause lead (trim after)), ¬IntroducesFilter lexeme := by
      rw [hclauseLexemes]
      refine List.forall_mem_cons.2 ⟨?_, fun lexeme hmem => ?_⟩
      · rcases hlead with rfl | rfl <;> decide
      · exact not_introducesFilter_of_filterToken? hfilter (by rw [hlexemes]; simp [hmem])
    cases hafter : lexemes after with
    | nil =>
      refine absurd ⟨rfl, hwhole, lead, ?_⟩ hbreaks
      rw [hdecompose, trim_eq_nil_of_lexemes hafter, clause, if_pos rfl]
    | cons subject rest =>
      rw [hafter] at hclauseLexemes
      have hread := Factor.read_anyFilter_semicolon hmore hclauseLexemes hnone
      unfold factorOf
      rw [hdecompose]
      unfold decompose
      simp only [htrim, hbehind, splitFilter, hfilterBehind, hfactorBehind, if_true]
      exact hread

end Whole

open Decomposition in
/-- A semicolon behind a rule changes neither subject nor filter, nor the kind of an error. -/
theorem factorOf_semicolon {body : Text} {isDefault : Bool}
    (hlast : (lexemes body).getLast? ≠ some [';']) (hbreaks : ¬(isDefault = true ∧ BreaksOff body)) :
    SameResult (factorOf (body ++ [';']) isDefault) (factorOf body isDefault) := by
  obtain ⟨blanks, hblanks, htrim⟩ := trim_append_semicolon (List.forall_mem_nil _) body
  rw [List.append_nil] at htrim
  rcases expression?_semicolon (trim body) hblanks with ⟨hwhole, hbehind⟩ | ⟨-, hsame⟩
  · cases hfilter : filterToken? (tokenize (trim body)) with
    | some found =>
      exact factorOf_of_filterToken?_some hblanks htrim hwhole hbehind hlast hfilter
    | none =>
      exact factorOf_of_filterToken?_none hblanks htrim hwhole hbehind hlast hbreaks hfilter
  · unfold factorOf decompose
    simp only [htrim, hsame]
    cases expression? (trim body) with
    | none => exact .error trivial
    | some expression =>
      simp only
      cases factor? (splitFilter expression isDefault).1 with
      | none => exact .error trivial
      | some factor => exact .refl _

open Decomposition in
/-- Only for a rule without a filter keyword does the placeholder stand in the place of its clause. -/
theorem filterToken?_of_anyFilter {body factor : Text}
    (hexpression : expression? (trim body) = some (trim body))
    (hdecompose : decompose body true = .ok ⟨factor, some anyFilter⟩) :
    filterToken? (tokenize (trim body)) = none := by
  cases hfilter : filterToken? (tokenize (trim body)) with
  | none => rfl
  | some found =>
    obtain ⟨keyword, token⟩ := found
    unfold decompose at hdecompose
    simp only [hexpression, splitFilter, hfilter] at hdecompose
    split at hdecompose
    next => simp at hdecompose
    next =>
      rw [Except.ok.injEq, Decomposition.mk.injEq, Option.some.injEq] at hdecompose
      have hany := lexemes_anyFilter
      rw [← hdecompose.2, lexemes_clause] at hany
      have hname : keyword.name = anyFilter := hdecompose.2 ▸ (List.cons.inj hany).1
      exact absurd hname (by cases keyword <;> decide)

open Decomposition in
/-- A default rule that breaks off is read, but not with a semicolon behind it. -/
theorem factorOf_of_breaksOff {body : Text} (hbreaks : BreaksOff body) :
    factorOf body true = .ok (Factor.any anyFilter) ∧
      ∃ error, factorOf (body ++ [';']) true = .error error := by
  obtain ⟨hexpression, lead, hdecompose⟩ := hbreaks
  obtain ⟨blanks, hblanks, htrim⟩ := trim_append_semicolon (List.forall_mem_nil _) body
  rw [List.append_nil] at htrim
  obtain ⟨-, hbehind⟩ : expression? (trim body) = some (trim body) ∧
      expression? (trim body ++ blanks ++ [';']) = some (trim body ++ blanks ++ [';']) :=
    (expression?_semicolon (trim body) hblanks).resolve_right fun hother =>
      hother.1 hexpression
  have hfilter := filterToken?_of_anyFilter hexpression hdecompose
  have hfilterBehind : filterToken? (tokenize (trim body ++ blanks ++ [';'])) = none := by
    rw [tokenize_append_semicolon hblanks,
      filterToken?_append_semicolon _ (Token.kind_semicolon _), hfilter]
  have hparts := hdecompose
  unfold decompose at hparts
  simp only [hexpression, splitFilter, hfilter] at hparts
  rcases factor?_semicolon (trim body) hblanks with
    ⟨hnone, -⟩ | ⟨found, before, word, after, hfound, -, hfactor, hfactorBehind⟩
  · simp [hnone] at hparts
  obtain ⟨more, hmore, hclause⟩ := clause_semicolon hblanks found after
  rw [hclause] at hfactorBehind
  -- the lead is all that there is of the factor
  have hlexemes : lexemes (clause found (trim after)) = [found.name] := by
    simp only [hfactor, Except.ok.injEq, Decomposition.mk.injEq] at hparts
    have hname := lexemes_of_isLexeme (.inl (isWord_name lead))
    rw [← hparts.1, lexemes_clause] at hname
    rw [lexemes_clause, (List.cons.inj hname).2]
  have hread := Factor.read_anyFilter_of_lead hfound hlexemes
  have hreadBehind := Factor.read_anyFilter_semicolon_of_lead hmore hfound hlexemes
  constructor
  · unfold factorOf decompose
    simp only [hexpression, splitFilter, hfilter, hfactor, if_true]
    exact hread
  · refine ⟨.unmatchedFactor
      (Factor.joined (clause found (trim after) ++ more ++ [';']) anyFilter), ?_⟩
    unfold factorOf decompose
    simp only [htrim, hbehind, splitFilter, hfilterBehind, hfactorBehind, if_true]
    exact hreadBehind

end ParsedRule

end RoutingPolicy
