import RoutingPolicy.Proofs.Rule.Placeholder
import RoutingPolicy.Proofs.Session.Run
import RoutingPolicy.Proofs.Session.Single

/-!
# Sessions and semicolons behind rules

A semicolon behind a rule makes no difference to a session, with two exceptions. A rule that ends in a
router loses its addresses, and a default rule that breaks off in front of its subject is refused
instead of read.
-/

namespace RoutingPolicy

open Text

/-- What a text ends with, blanks aside, its ends do as well unless they are blank. -/
theorem Text.getLast?_trimEnd_of_suffix {text suffix : Text} {c : Char} (hsuffix : suffix <:+ text)
    (hlast : (trimEnd text).getLast? ≠ some c) : (trimEnd suffix).getLast? ≠ some c := by
  intro hend
  obtain ⟨front, rfl⟩ := hsuffix
  obtain ⟨blanks, hblanks, hsplit⟩ := exists_eq_trimEnd_append suffix
  have hne : trimEnd suffix ≠ [] := List.ne_nil_of_mem (List.mem_of_getLast? hend)
  have hsolid : ∀ d ∈ (front ++ trimEnd suffix).getLast?, isBlank d = false := by
    rw [List.getLast?_append_of_ne_nil _ hne]
    exact isBlank_getLast?_trimEnd suffix
  rw [hsplit, ← List.append_assoc, trimEnd_append_right _ hblanks, trimEnd_of_getLast? hsolid,
    List.getLast?_append_of_ne_nil _ hne] at hlast
  exact hlast hend

/-! ### Contributions -/

namespace ParsedRule

variable {text : Text} {context : Context}

theorem read_semicolon (hlast : (trimEnd text).getLast? ≠ some ';')
    (hbreaks : ¬(context.isDefault = true ∧ BreaksOff (splitFamily text context).2)) :
    SameResult (read (text ++ [';']) context) (read text context) := by
  have hbody := getLast?_lexemes_of_trimEnd
    (getLast?_trimEnd_of_suffix (suffix_splitFamily text context) hlast)
  rw [read_eq, read_eq, splitFamily_semicolon]
  exact (factorOf_semicolon hbody hbreaks).map _

theorem read_of_breaksOff (hdefault : context.isDefault = true)
    (hbreaks : BreaksOff (splitFamily text context).2) :
    (∃ rule, read text context = .ok rule) ∧
      ∃ error, read (text ++ [';']) context = .error error := by
  obtain ⟨hread, error, hrefused⟩ := factorOf_of_breaksOff hbreaks
  rw [read_eq, read_eq, splitFamily_semicolon, hdefault, hread, hrefused]
  exact ⟨⟨_, rfl⟩, error, rfl⟩

end ParsedRule

/-- The rule names its routers at its end. -/
def LosesRouters (text : Text) (multiprotocol : Bool) : Prop :=
  AddressPair.EndsInRouter text ∧ AddressPair.ofRule? text multiprotocol ≠ none

theorem Contribution.ofRule_semicolon {text : Text} {context : Context}
    (hrouters : ¬LosesRouters text context.multiprotocol) (factor : Factor) :
    ofRule (text ++ [';']) context factor = ofRule text context factor := by
  have haddresses : AddressPair.ofRule? (text ++ [';']) context.multiprotocol =
      AddressPair.ofRule? text context.multiprotocol := by
    rw [AddressPair.ofRule?_semicolon]
    split
    next hends =>
      by_contra hne
      exact hrouters ⟨hends, fun hnone => hne hnone.symm⟩
    next => rfl
  unfold ofRule
  rw [haddresses, ActionList.ofRule?_semicolon]

theorem Contribution.addresses_ofRule (text : Text) (context : Context) (factor : Factor) :
    (ofRule text context factor).point.addresses =
      AddressPair.ofRule? text context.multiprotocol := by
  rw [ofRule, PeeringPoint.addresses_addActions?]
  rfl

/-! ### Sessions -/

namespace Session

/-- The rule is added to the model. -/
def Accepts (text : Text) (context : Context) : Prop :=
  ∃ rule, ParsedRule.read text context = .ok rule ∧
    rule.family.acceptedBy context.requested = true

theorem analyse_of_error (session : Session) {text : Text} {context : Context} {error : RuleError}
    (hread : ParsedRule.read text context = .error error) :
    session.analyse text context = (.error error, session) := by
  rw [analyse, Analysis.ofRule, hread]

variable {text : Text} {context : Context}

theorem analyse_semicolon (hlast : (trimEnd text).getLast? ≠ some ';')
    (hbreaks : ¬(context.isDefault = true ∧
      ParsedRule.BreaksOff (ParsedRule.splitFamily text context).2))
    (hrouters : ¬(Accepts text context ∧ LosesRouters text context.multiprotocol))
    (session : Session) :
    SameResult (session.analyse (text ++ [';']) context).1 (session.analyse text context).1 ∧
      (session.analyse (text ++ [';']) context).2 = (session.analyse text context).2 := by
  have hsame := ParsedRule.read_semicolon hlast hbreaks
  cases hread : ParsedRule.read text context with
  | error error =>
    rw [hread] at hsame
    obtain ⟨other, hother, hkind⟩ := hsame.eq_error
    rw [session.analyse_of_error hread, session.analyse_of_error hother]
    exact ⟨.error hkind, rfl⟩
  | ok rule =>
    rw [hread] at hsame
    have haccepted (hfamily : rule.family.acceptedBy context.requested = true) :
        Contribution.ofRule (text ++ [';']) context rule.factor =
          Contribution.ofRule text context rule.factor :=
      Contribution.ofRule_semicolon (fun hloses => hrouters ⟨⟨rule, hread, hfamily⟩, hloses⟩) _
    rw [session.analyse_of_read hread, session.analyse_of_read hsame.eq_ok]
    split
    next hfamily =>
      rw [haccepted hfamily]
      exact ⟨.refl _, rfl⟩
    next => exact ⟨.refl _, rfl⟩

/-- A rule that is accepted without its routers leaves another session behind. -/
theorem analyse_semicolon_of_losesRouters (autnum : Text) (config : Config)
    (haccepts : Accepts text context) (hloses : LosesRouters text context.multiprotocol) :
    ((new autnum config).analyse (text ++ [';']) context).2 ≠
      ((new autnum config).analyse text context).2 := by
  obtain ⟨rule, hread, hfamily⟩ := haccepts
  obtain ⟨hends, hpair⟩ := hloses
  have hplain := records_add autnum config (Contribution.ofRule text context rule.factor)
  intro hsession
  rw [analyse_of_read _ hread, if_pos hfamily] at hsession
  obtain ⟨other, hother, hbehind⟩ | ⟨outcome, -, hbehind⟩ :=
    (new autnum config).analyse_cases (text ++ [';']) context
  · rw [hbehind] at hsession
    have hrecords := records_add autnum config
      (Contribution.ofRule (text ++ [';']) context other.factor)
    simp only at hsession
    rw [hsession] at hrecords
    have haddresses := congrArg PeeringPoint.addresses (hplain.unique hrecords).2
    rw [Contribution.addresses_ofRule, Contribution.addresses_ofRule,
      AddressPair.ofRule?_semicolon, if_pos hends] at haddresses
    exact hpair haddresses
  · rw [hbehind] at hsession
    simp only at hsession
    obtain ⟨peer, -, hget⟩ := hplain.directory
    have hnew := hget (Contribution.ofRule text context rule.factor).subject
    rw [← hsession, if_pos rfl] at hnew
    exact absurd hnew (by simp [new])

/-- One semicolon behind a rule makes no difference to any session, unless it takes the place of a
router at the end of the rule or of the subject of a default rule that breaks off in front of it. -/
theorem analyse_semicolon_iff (hlast : (trimEnd text).getLast? ≠ some ';') :
    (∀ session : Session,
      SameResult (session.analyse (text ++ [';']) context).1 (session.analyse text context).1 ∧
        (session.analyse (text ++ [';']) context).2 = (session.analyse text context).2) ↔
      ¬(context.isDefault = true ∧
        ParsedRule.BreaksOff (ParsedRule.splitFamily text context).2) ∧
      ¬(Accepts text context ∧ LosesRouters text context.multiprotocol) := by
  constructor
  · intro hsame
    constructor
    · rintro ⟨hdefault, hbreaks⟩
      obtain ⟨⟨rule, hread⟩, error, hrefused⟩ := ParsedRule.read_of_breaksOff hdefault hbreaks
      have houtcome := (hsame (new [] .standard)).1
      rw [analyse_of_read _ hread, analyse_of_error _ hrefused] at houtcome
      split at houtcome
      · cases houtcome
      · cases houtcome
    · rintro ⟨haccepts, hloses⟩
      exact analyse_semicolon_of_losesRouters [] .standard haccepts hloses
        (hsame (new [] .standard)).2
  · rintro ⟨hbreaks, hrouters⟩ session
    exact analyse_semicolon hlast hbreaks hrouters session

/-- A default rule with routers, actions and no filter. -/
theorem analyse_semicolon_default :
    let text := "TO AS1 192.0.2.2 AT 192.0.2.1 ACTION PREF=1".toList
    (trimEnd text).getLast? ≠ some ';' ∧ ∀ session : Session,
      SameResult (session.analyse (text ++ [';']) (.default false)).1
          (session.analyse text (.default false)).1 ∧
        (session.analyse (text ++ [';']) (.default false)).2 =
          (session.analyse text (.default false)).2 := by
  intro text
  have hlast : (trimEnd text).getLast? ≠ some ';' := by decide
  have hbreaks : ¬((Context.default false).isDefault = true ∧
      ParsedRule.BreaksOff (ParsedRule.splitFamily text (.default false)).2) := by
    rintro ⟨-, -, lead, hdecompose⟩
    have hparts : decompose text true = .ok ⟨text, some anyFilter⟩ := by decide +kernel
    have hname : lead.name ≠ text := by cases lead <;> decide
    have hsame : decompose text true = .ok ⟨lead.name, some anyFilter⟩ := hdecompose
    rw [hparts, Except.ok.injEq, Decomposition.mk.injEq] at hsame
    exact hname hsame.1.symm
  have hrouters : ¬(Accepts text (.default false) ∧ LosesRouters text false) := by
    have hends : ¬AddressPair.EndsInRouter text := by decide +kernel
    exact fun hloses => hends hloses.2.1
  exact ⟨hlast, (analyse_semicolon_iff hlast).2 ⟨hbreaks, hrouters⟩⟩

/-- A semicolon in the place of the local router, and one in the place of the subject. -/
theorem analyse_semicolon_exceptions :
    let session := new "AS64500".toList .standard
    let routers := "TO AS1 192.0.2.2 AT 192.0.2.1".toList
    (trimEnd routers).getLast? ≠ some ';' ∧
      (session.analyse (routers ++ [';']) (.default false)).2 ≠
        (session.analyse routers (.default false)).2 ∧
      ¬SameResult (session.analyse ("TO".toList ++ [';']) (.default false)).1
        (session.analyse "TO".toList (.default false)).1 := by
  intro session routers
  have hread : ParsedRule.read routers (.default false) =
      .ok ⟨.ipv4Unicast, .incoming, false, "AS1".toList, anyFilter⟩ := by decide +kernel
  have hloses : LosesRouters routers false := by
    have hends : AddressPair.EndsInRouter routers := by decide +kernel
    have hpair : AddressPair.ofRule? routers false ≠ none := by decide +kernel
    exact ⟨hends, hpair⟩
  refine ⟨by decide, analyse_semicolon_of_losesRouters _ _ ⟨_, hread, rfl⟩ hloses, ?_⟩
  have hplain : ParsedRule.read "TO".toList (.default false) =
      .ok ⟨.ipv4Unicast, .incoming, false, anyFilter, anyFilter⟩ := by decide +kernel
  have hrefused : ParsedRule.read ("TO".toList ++ [';']) (.default false) =
      .error (.unmatchedFactor "TO ; ANY".toList) := by decide +kernel
  rw [analyse_of_read _ hplain, analyse_of_error _ hrefused]
  intro hsame
  cases hsame

end Session

end RoutingPolicy
