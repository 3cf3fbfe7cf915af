import RoutingPolicy.Session.Basic

/-!
# Runs of a session

A session reads rule after rule. What becomes of a rule and what it adds depends on the rule alone;
a rule that is refused or skipped changes nothing.
-/

namespace RoutingPolicy

/-- A rule as it is handed to a session: its text and how it is interpreted. -/
structure Request where
  text : Text
  context : Context
deriving DecidableEq

namespace Request

/-- What becomes of a rule, in any session. -/
def outcome (request : Request) : Except RuleError Outcome :=
  match Analysis.ofRule request.text request.context with
  | .error error => .error error
  | .ok (.mismatch family _) => .ok (.mismatch family)
  | .ok (.contribution contribution) => .ok (.accepted contribution.subject)

/-- What a rule adds to any session, if it is accepted. -/
def contribution? (request : Request) : Option Contribution :=
  match Analysis.ofRule request.text request.context with
  | .ok (.contribution contribution) => some contribution
  | _ => none

/-- Why a rule is refused, if it is. -/
def error? (request : Request) : Option RuleError :=
  match ParsedRule.read request.text request.context with
  | .error error => some error
  | .ok _ => none

/-- A rule is accepted, skipped or refused. -/
theorem outcome_cases (request : Request) :
    (∃ contribution, request.contribution? = some contribution ∧ request.error? = none ∧
      request.outcome = .ok (.accepted contribution.subject)) ∨
    (∃ family, request.contribution? = none ∧ request.error? = none ∧
      request.outcome = .ok (.mismatch family)) ∨
    ∃ error, request.contribution? = none ∧ request.error? = some error ∧
      request.outcome = .error error := by
  rw [contribution?, error?, outcome, Analysis.ofRule]
  cases ParsedRule.read request.text request.context with
  | error error => exact .inr (.inr ⟨error, rfl, rfl, rfl⟩)
  | ok rule =>
    by_cases hfamily : rule.family.acceptedBy request.context.requested = true
    · simp only [if_pos hfamily]
      exact .inl ⟨_, rfl, trivial, rfl⟩
    · simp only [if_neg hfamily]
      exact .inr (.inl ⟨_, trivial, trivial, rfl⟩)

theorem exists_rule_of_contribution? {request : Request} {contribution : Contribution}
    (hcontribution : request.contribution? = some contribution) :
    ∃ rule, ParsedRule.read request.text request.context = .ok rule ∧
      contribution = Contribution.ofRule request.text request.context rule.factor := by
  rw [contribution?, Analysis.ofRule] at hcontribution
  cases hread : ParsedRule.read request.text request.context with
  | error error => simp [hread] at hcontribution
  | ok rule =>
    refine ⟨rule, rfl, ?_⟩
    by_cases hfamily : rule.family.acceptedBy request.context.requested = true
    · simpa [hread, hfamily] using hcontribution.symm
    · simp [hread, hfamily] at hcontribution

end Request

namespace Session

/-- A rule that can be read is added or skipped, as its family says. -/
theorem analyse_of_read (session : Session) {text : Text} {context : Context} {rule : ParsedRule}
    (hread : ParsedRule.read text context = .ok rule) :
    session.analyse text context =
      if rule.family.acceptedBy context.requested then
        (.ok (.accepted rule.factor.subject),
          session.add (Contribution.ofRule text context rule.factor))
      else (.ok (.mismatch rule.family), session) := by
  rw [analyse, Analysis.ofRule, hread]
  by_cases hfamily : rule.family.acceptedBy context.requested = true
  · simp only [hfamily, if_true]
    rfl
  · simp only [hfamily, Bool.false_eq_true, if_false]

/-- One rule changes a session in one of two ways: what it contributes is added and its subject
reported, or nothing is added and it is not reported as accepted. -/
theorem analyse_cases (session : Session) (text : Text) (context : Context) :
    (∃ rule, ParsedRule.read text context = .ok rule ∧
      session.analyse text context =
        (.ok (.accepted rule.factor.subject),
          session.add (Contribution.ofRule text context rule.factor))) ∨
    (∃ outcome, (∀ subject, outcome ≠ .ok (.accepted subject)) ∧
      session.analyse text context = (outcome, session)) := by
  cases hread : ParsedRule.read text context with
  | error error =>
    refine .inr ⟨.error error, by simp, ?_⟩
    rw [analyse, Analysis.ofRule, hread]
  | ok rule =>
    have hanalyse := session.analyse_of_read hread
    by_cases hfamily : rule.family.acceptedBy context.requested = true
    · rw [if_pos hfamily] at hanalyse
      exact .inl ⟨rule, rfl, hanalyse⟩
    · rw [if_neg hfamily] at hanalyse
      exact .inr ⟨.ok (.mismatch rule.family), by simp, hanalyse⟩

theorem analyse_eq (session : Session) (request : Request) :
    session.analyse request.text request.context =
      (request.outcome, request.contribution?.elim session session.add) := by
  rw [analyse, Request.outcome, Request.contribution?]
  cases Analysis.ofRule request.text request.context with
  | error error => rfl
  | ok analysis => cases analysis <;> rfl

theorem outcome_analyse (session : Session) (request : Request) :
    (session.analyse request.text request.context).1 = request.outcome := by
  rw [analyse_eq]

/-- Analyses rules in order. The result lists each rule with what became of it, and the session
after the last one. -/
def run (session : Session) :
    List Request → List (Request × Except RuleError Outcome) × Session
  | [] => ([], session)
  | request :: requests =>
    let (outcome, next) := session.analyse request.text request.context
    let (trace, last) := next.run requests
    ((request, outcome) :: trace, last)

/-- A run adds what its rules contribute, one after another. -/
theorem run_eq (session : Session) (requests : List Request) :
    session.run requests = (requests.map fun request => (request, request.outcome),
      (requests.filterMap Request.contribution?).foldl add session) := by
  induction requests generalizing session with
  | nil => rfl
  | cons request requests ih =>
    rw [run, analyse_eq, List.filterMap_cons]
    simp only [ih]
    cases request.contribution? <;> rfl

end Session

/-- A rule that was accepted, with the subject reported for it. -/
structure Accepted where
  request : Request
  subject : Text
deriving DecidableEq

namespace Accepted

/-- The accepted rules of a run, in order. -/
def ofTrace (trace : List (Request × Except RuleError Outcome)) : List Accepted :=
  trace.filterMap fun (request, outcome) =>
    match outcome with
    | .ok (.accepted subject) => some ⟨request, subject⟩
    | _ => none

theorem ofTrace_cons_accepted (request : Request) (subject : Text)
    (trace : List (Request × Except RuleError Outcome)) :
    ofTrace ((request, .ok (.accepted subject)) :: trace) = ⟨request, subject⟩ :: ofTrace trace :=
  rfl

theorem ofTrace_cons_of_ne {outcome : Except RuleError Outcome}
    (houtcome : ∀ subject, outcome ≠ .ok (.accepted subject)) (request : Request)
    (trace : List (Request × Except RuleError Outcome)) :
    ofTrace ((request, outcome) :: trace) = ofTrace trace := by
  match outcome with
  | .ok (.accepted subject) => exact absurd rfl (houtcome subject)
  | .ok (.mismatch _) => rfl
  | .error _ => rfl

end Accepted

namespace Session

/-- What holds of a session and the rules accepted so far, and is kept by each accepted rule, holds
at the end of every run. -/
theorem run_induction {Holds : List Accepted → Session → Prop}
    (hstep : ∀ (entries : List Accepted) (session : Session) (request : Request)
      (rule : ParsedRule), Holds entries session →
        ParsedRule.read request.text request.context = .ok rule →
        Holds (entries ++ [⟨request, rule.factor.subject⟩])
          (session.add (Contribution.ofRule request.text request.context rule.factor)))
    (requests : List Request) {entries : List Accepted} {session : Session}
    (hstart : Holds entries session) :
    Holds (entries ++ Accepted.ofTrace (session.run requests).1) (session.run requests).2 := by
  induction requests generalizing entries session with
  | nil => simpa [run, Accepted.ofTrace] using hstart
  | cons request requests ih =>
    rw [run]
    obtain ⟨rule, hread, hanalyse⟩ | ⟨outcome, houtcome, hanalyse⟩ :=
      session.analyse_cases request.text request.context
    · simp only [hanalyse, Accepted.ofTrace_cons_accepted]
      rw [List.append_cons]
      exact ih (hstep entries session request rule hstart hread)
    · simp only [hanalyse, Accepted.ofTrace_cons_of_ne houtcome]
      exact ih hstart

end Session

end RoutingPolicy
