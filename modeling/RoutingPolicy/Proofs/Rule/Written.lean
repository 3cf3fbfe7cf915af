import RoutingPolicy.Proofs.Rule.Action
import RoutingPolicy.Proofs.Rule.Assignment
import RoutingPolicy.Proofs.Rule.Decomposition
import RoutingPolicy.Proofs.Rule.Factor
import RoutingPolicy.Proofs.Rule.Family
import RoutingPolicy.Proofs.Rule.Routers
import RoutingPolicy.Rule.Parsed

/-!
# Written rules

A rule is given by what it says and written in the usual layout. Each of the readers, which look for
their own keywords from their own end, finds in the text what the rule says.
-/

namespace RoutingPolicy

open Text

inductive RuleKind where
  | importing
  | exporting
  | default
deriving DecidableEq

namespace RuleKind

/-- The form in which rules of the kind are written. -/
def form : RuleKind → Factor.Form
  | importing => .importing
  | exporting => .exporting
  | default => .default

def context : RuleKind → Bool → Context
  | importing => .importing
  | exporting => .exporting
  | default => .default

variable (kind : RuleKind)

theorem form_mem_forms : kind.form ∈ Factor.forms := by
  cases kind <;> decide

theorem lead_cases : kind.form.lead = .fromPeer ∨ kind.form.lead = .toPeer := by
  cases kind <;> decide

theorem boundary_mem_filterKeywords : kind.form.boundary ∈ Decomposition.filterKeywords := by
  cases kind <;> decide

theorem ne_lead_and_boundary {keyword : Keyword} (hkeyword : keyword ≠ .fromPeer ∧
    keyword ≠ .toPeer ∧ keyword ∉ Decomposition.filterKeywords) :
    keyword ≠ kind.form.lead ∧ keyword ≠ kind.form.boundary := by
  revert hkeyword
  cases kind <;> cases keyword <;> decide

end RuleKind

/-- A filter that can be written at the end of a rule. Braces only have to be as many on either
side. -/
structure IsFilter (filter : Text) : Prop where
  solid : Solid filter
  containsKeyword_eq_false : ∀ keyword, containsKeyword filter keyword = false
  count_eq : filter.count '{' = filter.count '}'
  getLast?_ne : filter.getLast? ≠ some ';'

theorem IsFilter.without {filter : Text} (hfilter : IsFilter filter) (keyword : Keyword) :
    Without keyword [filter] :=
  Without.singleton (hfilter.containsKeyword_eq_false keyword)

theorem PlainWord.isFilter {word : Text} (hword : PlainWord word) : IsFilter word where
  solid := hword.solid
  containsKeyword_eq_false := hword.containsKeyword_eq_false
  count_eq := by
    rw [List.count_eq_zero.2 (hword.isWord.not_mem (by decide)),
      List.count_eq_zero.2 (hword.isWord.not_mem (by decide))]
  getLast?_ne hlast := hword.isWord.not_mem (by decide) (List.mem_of_getLast? hlast)

/-- A rule as it is meant. -/
structure WrittenRule where
  kind : RuleKind
  multiprotocol : Bool
  /-- The family named behind `AFI`, if any; only multiprotocol rules name one. -/
  family? : Option AddressFamily
  subject : Text
  addresses : Option AddressPair
  assignments : List Assignment
  filter : Text
  family_known : ∀ family ∈ family?, family ∈ AddressFamily.known ∧ multiprotocol = true
  plainWord_subject : PlainWord subject
  addresses_version : ∀ pair ∈ addresses,
    pair.localRouter.isIpv6 = multiprotocol ∧ pair.remoteRouter.isIpv6 = multiprotocol
  isFilter : IsFilter filter

namespace WrittenRule

variable (rule : WrittenRule)

/-- `AFI` and the token of the family. -/
def familyParts : List Text :=
  match rule.family? with
  | none => []
  | some family => [Keyword.afi.name, family.name]

/-- The two addresses around `AT`. -/
def routerParts : List Text :=
  match rule.addresses with
  | none => []
  | some pair => [pair.remoteRouter.toText, Keyword.atRouter.name, pair.localRouter.toText]

/-- `ACTION` and the assignments, each with a semicolon. -/
def actionParts : List Text :=
  if rule.assignments = [] then []
  else Keyword.action.name :: rule.assignments.map (Assignment.toText · ++ [';'])

def bodyParts : List Text :=
  rule.kind.form.lead.name :: rule.subject ::
    (rule.routerParts ++ rule.actionParts ++ [rule.kind.form.boundary.name, rule.filter])

def toText : Text := spaced (rule.familyParts ++ rule.bodyParts)

example : WrittenRule.toText
    { kind := .importing
      multiprotocol := false
      family? := none
      subject := "AS1".toList
      addresses := some ⟨.v4 ⟨10, 0, 0, 1⟩, .v4 ⟨10, 0, 0, 2⟩⟩
      assignments := []
      filter := "AS-FOO".toList
      family_known := by simp
      plainWord_subject := by decide
      addresses_version := by simp [Address.isIpv6]
      isFilter := PlainWord.isFilter (by decide) } =
    "FROM AS1 10.0.0.2 AT 10.0.0.1 ACCEPT AS-FOO".toList := by
  decide

def family : AddressFamily :=
  if rule.multiprotocol then rule.family?.getD .any else .ipv4Unicast

def context (requested : IpVersions) : Context :=
  (rule.kind.context rule.multiprotocol).requesting requested

def direction : Direction :=
  match rule.kind with
  | .importing | .default => .incoming
  | .exporting => .outgoing

theorem direction_context (requested : IpVersions) :
    (rule.context requested).direction = rule.direction := by
  unfold context RuleKind.context direction
  cases rule.kind <;> rfl

theorem multiprotocol_context (requested : IpVersions) :
    (rule.context requested).multiprotocol = rule.multiprotocol := by
  unfold context RuleKind.context
  cases rule.kind <;> rfl

theorem actionBoundary_context (requested : IpVersions) :
    (rule.context requested).actionBoundary = rule.kind.form.boundary := by
  unfold context RuleKind.context
  cases rule.kind <;> rfl

/-! ### The vocabulary of the parts -/

theorem uses_familyParts : Uses [.afi] rule.familyParts := by
  unfold familyParts
  split
  next => exact Uses.nil
  next family hfamily =>
    have hknown := (rule.family_known family hfamily).1
    exact Uses.cons (uses_name (by decide)) (AddressFamily.plainWord_name hknown).uses

theorem uses_routerParts : Uses [.atRouter] rule.routerParts := by
  unfold routerParts
  split
  next => exact Uses.nil
  next pair _ =>
    exact Uses.cons pair.remoteRouter.plainWord_toText.uses
      (Uses.cons (uses_name (by decide)) pair.localRouter.plainWord_toText.uses)

theorem uses_statements (assignments : List Assignment) :
    Uses [] (assignments.map (Assignment.toText · ++ [';'])) := by
  rw [List.map_eq_flatMap]
  exact Uses.flatMap fun assignment _ => assignment.plainWord_toText.uses.statement

theorem uses_actionParts : Uses [.action] rule.actionParts := by
  unfold actionParts
  split
  · exact Uses.nil
  · exact Uses.cons (uses_name (by decide)) ((uses_statements _).mono (by simp))

/-- Router addresses and actions hold no keywords but their own. -/
theorem uses_selectorParts : Uses [.atRouter, .action] (rule.routerParts ++ rule.actionParts) :=
  Uses.append (rule.uses_routerParts.mono (by decide)) (rule.uses_actionParts.mono (by decide))

theorem uses_peeringParts :
    Uses [.atRouter, .action] (rule.subject :: (rule.routerParts ++ rule.actionParts)) :=
  Uses.cons rule.plainWord_subject.uses rule.uses_selectorParts

theorem solid_bodyParts : ∀ part ∈ rule.bodyParts, Solid part := by
  refine List.forall_mem_cons.2 ⟨solid_name _, ?_⟩
  rw [← List.cons_append]
  refine List.forall_mem_append.2 ⟨rule.uses_peeringParts.solid, ?_⟩
  exact List.forall_mem_cons.2 ⟨solid_name _, List.forall_mem_singleton.2 rule.isFilter.solid⟩

theorem without_bodyParts {keyword : Keyword} (hlead : keyword ≠ rule.kind.form.lead)
    (hboundary : keyword ≠ rule.kind.form.boundary)
    (hselector : Without keyword (rule.routerParts ++ rule.actionParts)) :
    Without keyword rule.bodyParts := by
  refine Without.cons (containsKeyword_name hlead) (Without.cons
    (rule.plainWord_subject.containsKeyword_eq_false keyword) (Without.append hselector ?_))
  exact Without.cons (containsKeyword_name hboundary) (rule.isFilter.without keyword)

/-! ### Reading -/

theorem splitFamily_toText (requested : IpVersions) :
    ParsedRule.splitFamily rule.toText (rule.context requested) =
      (rule.family, spaced rule.bodyParts) := by
  have hbody : rule.bodyParts ≠ [] := List.cons_ne_nil _ _
  rw [ParsedRule.splitFamily, rule.multiprotocol_context, family, toText]
  cases hfamily : rule.family? with
  | none =>
    have hparts : rule.familyParts = [] := by rw [familyParts, hfamily]
    rw [hparts, List.nil_append]
    split
    · exact AddressFamily.resolve_eq_any rule.kind.lead_cases _
    · rfl
  | some family =>
    obtain ⟨hknown, hmultiprotocol⟩ := rule.family_known family hfamily
    have hparts : rule.familyParts = [Keyword.afi.name, family.name] := by
      rw [familyParts, hfamily]
    rw [hparts, hmultiprotocol, if_pos rfl, if_pos rfl]
    exact AddressFamily.resolve_spaced hknown rule.solid_bodyParts hbody

theorem expression?_bodyParts :
    Decomposition.expression? (trim (spaced rule.bodyParts)) = some (spaced rule.bodyParts) := by
  have hlead : IsLexeme rule.kind.form.lead.name := .inl (isWord_name _)
  have hgroup : Decomposition.isGrouped (tokenize (spaced rule.bodyParts)) = false := by
    rw [bodyParts, tokenize_spaced_cons hlead]
    simp [Decomposition.isGrouped, Token.kind]
  have hother : ∀ keyword, keyword = .refine ∨ keyword = .except →
      containsKeyword (spaced rule.bodyParts) keyword = false := by
    intro keyword hkeyword
    obtain ⟨hlead, hboundary⟩ : keyword ≠ rule.kind.form.lead ∧
        keyword ≠ rule.kind.form.boundary := by
      refine rule.kind.ne_lead_and_boundary ?_
      rcases hkeyword with rfl | rfl <;> decide
    refine containsKeyword_spaced (rule.without_bodyParts hlead hboundary
      (rule.uses_selectorParts.without keyword ?_))
    rcases hkeyword with rfl | rfl <;> decide
  have hcount : ∀ c, c = '{' ∨ c = '}' →
      (spaced rule.bodyParts).count c = rule.filter.count c := by
    intro c hc
    have hparts : rule.bodyParts = (rule.kind.form.lead.name :: rule.subject ::
        (rule.routerParts ++ rule.actionParts ++ [rule.kind.form.boundary.name])) ++
          [rule.filter] := by
      simp [bodyParts]
    have huses : Uses Keyword.all (rule.kind.form.lead.name :: rule.subject ::
        (rule.routerParts ++ rule.actionParts ++ [rule.kind.form.boundary.name])) :=
      Uses.cons (uses_name (Keyword.mem_all _)) (Uses.cons rule.plainWord_subject.uses
        (Uses.append (rule.uses_selectorParts.mono (by decide)) (uses_name (Keyword.mem_all _))))
    rw [hparts, spaced_append_singleton, List.count_append, huses.count_leading hc, Nat.zero_add]
  rw [trim_spaced rule.solid_bodyParts]
  refine Decomposition.expression?_ungrouped hgroup (hother _ (by decide)) (hother _ (by decide)) ?_
  rw [hcount _ (.inl rfl), hcount _ (.inr rfl), rule.isFilter.count_eq]

theorem decompose_bodyParts (isDefault : Bool) :
    decompose (spaced rule.bodyParts) isDefault =
      .ok ⟨spaced (rule.kind.form.lead.name :: rule.subject ::
          (rule.routerParts ++ rule.actionParts)),
        some (spaced [rule.kind.form.boundary.name, rule.filter])⟩ := by
  have huses := rule.uses_peeringParts
  refine decompose_of_expression [] (rule.subject :: (rule.routerParts ++ rule.actionParts))
    [rule.filter] isDefault rule.expression?_bodyParts ?_ rule.kind.boundary_mem_filterKeywords ?_
    (fun keyword _ _ => rule.isFilter.without keyword) ?_ ?_
  · exact rule.kind.lead_cases.imp id fun hlead => ⟨hlead, huses.without _ (by decide)⟩
  · intro keyword hkeyword
    refine huses.without keyword ?_
    revert keyword
    decide
  · refine huses.without _ ?_
    cases rule.kind <;> decide
  · exact List.forall_mem_append.2 ⟨huses.solid, List.forall_mem_singleton.2 rule.isFilter.solid⟩

theorem joined_bodyParts :
    Factor.joined (spaced (rule.kind.form.lead.name :: rule.subject ::
        (rule.routerParts ++ rule.actionParts)))
      (spaced [rule.kind.form.boundary.name, rule.filter]) = spaced rule.bodyParts :=
  Factor.joined_spaced _ (List.forall_mem_cons.2 ⟨solid_name _, rule.uses_peeringParts.solid⟩)
    (List.cons_ne_nil _ _) rule.isFilter.solid rule.isFilter.getLast?_ne

theorem read_toText (requested : IpVersions) :
    ParsedRule.read rule.toText (rule.context requested) =
      .ok ⟨rule.family, rule.direction, rule.multiprotocol, rule.subject, rule.filter⟩ := by
  have huses := rule.uses_selectorParts
  have hfactor := Factor.read_of_joined rule.kind.form_mem_forms rule.joined_bodyParts
    rule.plainWord_subject huses.solid (List.forall_mem_singleton.2 rule.isFilter.solid)
    (List.cons_ne_nil _ _) (rule.isFilter.without _) fun _ =>
      Without.append (huses.without _ (by decide)) (rule.isFilter.without _)
  rw [spaced_singleton] at hfactor
  simp only [ParsedRule.read, splitFamily_toText, decompose_bodyParts, Option.getD_some, hfactor,
    direction_context, multiprotocol_context]

/-! ### Router addresses and actions -/

theorem without_toText_parts {keyword : Keyword} (hfamily : keyword ≠ .afi)
    (hlead : keyword ≠ rule.kind.form.lead) (hboundary : keyword ≠ rule.kind.form.boundary)
    (hselector : Without keyword (rule.routerParts ++ rule.actionParts)) :
    Without keyword (rule.familyParts ++ rule.bodyParts) :=
  Without.append (rule.uses_familyParts.without keyword (by simpa using hfamily))
    (rule.without_bodyParts hlead hboundary hselector)

/-- The parts before the router addresses. -/
def frontParts : List Text := rule.familyParts ++ [rule.kind.form.lead.name, rule.subject]

theorem uses_frontParts : Uses [.afi, .fromPeer, .toPeer] rule.frontParts := by
  have hlead : rule.kind.form.lead ∈ [Keyword.afi, .fromPeer, .toPeer] := by
    cases rule.kind <;> decide
  exact Uses.append (rule.uses_familyParts.mono (by decide))
    (Uses.cons (uses_name hlead) rule.plainWord_subject.uses)

theorem toText_of_nil (hassignments : rule.assignments = []) :
    rule.toText = spaced (rule.frontParts ++ rule.routerParts ++
      rule.kind.form.boundary.name :: [rule.filter]) := by
  simp [toText, bodyParts, frontParts, actionParts, hassignments]

theorem toText_of_ne (hassignments : rule.assignments ≠ []) :
    rule.toText = spaced (rule.frontParts ++ rule.routerParts ++ Keyword.action.name ::
      ((rule.assignments.map Assignment.toText).map (· ++ [';']) ++
        rule.kind.form.boundary.name :: [rule.filter])) := by
  simp [toText, bodyParts, frontParts, actionParts, hassignments, Function.comp_def]

theorem addresses_toText :
    AddressPair.ofRule? rule.toText rule.multiprotocol = rule.addresses := by
  cases haddresses : rule.addresses with
  | none =>
    have hparts : rule.routerParts = [] := by rw [routerParts, haddresses]
    refine AddressPair.ofRule?_eq_none _ (containsKeyword_spaced
      (rule.without_toText_parts (by decide) ?_ ?_ ?_))
    · cases rule.kind <;> decide
    · cases rule.kind <;> decide
    · rw [hparts, List.nil_append]
      exact rule.uses_actionParts.without _ (by decide)
  | some pair =>
    obtain ⟨hlocal, hremote⟩ := rule.addresses_version pair haddresses
    have hrouter : rule.routerParts =
        [pair.remoteRouter.toText, Keyword.atRouter.name, pair.localRouter.toText] := by
      rw [routerParts, haddresses]
    have hfront := rule.uses_frontParts
    have hread : ∀ {terminator : Keyword} {after : List Text},
        AddressPair.Terminates terminator rule.frontParts after →
          AddressPair.ofRule? (spaced (rule.frontParts ++ pair.remoteRouter.toText ::
            Keyword.atRouter.name :: pair.localRouter.toText :: terminator.name :: after))
            rule.multiprotocol = some pair :=
      AddressPair.ofRule?_spaced hlocal hremote (hfront.without _ (by decide))
        (hfront.without _ (by decide))
    by_cases hassignments : rule.assignments = []
    · rw [rule.toText_of_nil hassignments, hrouter, List.append_assoc]
      refine hread (.inr ⟨rule.kind.boundary_mem_filterKeywords, ?_, ?_⟩)
      · intro keyword hkeyword
        refine hfront.without keyword ?_
        revert keyword
        decide
      · exact rule.isFilter.without _
    · rw [rule.toText_of_ne hassignments, hrouter, List.append_assoc]
      exact hread (.inl rfl)

/-- The actions of the rule, numbered from zero. -/
def actions : List Action :=
  rule.assignments.mapIdx fun sequence assignment => assignment.action sequence

theorem actions_toText (direction : Direction) :
    ActionList.ofRule? rule.toText direction rule.kind.form.boundary =
      if rule.assignments = [] then none else some ⟨direction, rule.actions⟩ := by
  by_cases hassignments : rule.assignments = []
  · have hparts : rule.actionParts = [] := by rw [actionParts, if_pos hassignments]
    have hnone : containsKeyword rule.toText .action = false := by
      refine containsKeyword_spaced (rule.without_toText_parts (by decide) ?_ ?_ ?_)
      · cases rule.kind <;> decide
      · cases rule.kind <;> decide
      · rw [hparts, List.append_nil]
        exact rule.uses_routerParts.without _ (by decide)
    rw [if_pos hassignments, ← Option.not_isSome_iff_eq_none, ActionList.isSome_ofRule?, hnone]
    exact Bool.false_ne_true
  · have hsemicolon : ∀ text ∈ rule.assignments.map Assignment.toText, ';' ∉ text := by
      rw [List.forall_mem_map]
      exact fun assignment _ => assignment.isWord_toText.not_mem (by decide)
    have hbefore := Uses.append (rule.uses_frontParts.mono (by simp))
      (rule.uses_routerParts.mono (by simp : _ ⊆ [.afi, .fromPeer, .toPeer, .atRouter]))
    rw [rule.toText_of_ne hassignments, ActionList.ofRule?_spaced direction hsemicolon
      (hbefore.without _ (by decide)) (rule.isFilter.without _),
      if_neg hassignments, Assignment.ofStatements_toText]
    simp only [Nat.zero_add, actions]

end WrittenRule

end RoutingPolicy
