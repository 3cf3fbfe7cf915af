import RoutingPolicy.Proofs.Session.Run

/-!
# What can be asked of a session

A session changes when it analyses a rule or reads a policy. Reading a policy analyses the rules of
its attributes in order, so every sequence of calls is a run, and what each accepted rule keeps holds
after all calls.
-/

namespace RoutingPolicy

/-- The rule in an attribute of a policy, if the configuration has such rules read. -/
def Request.ofAttribute? (config : Config) (item : ObjectAttribute) : Option Request :=
  (config.contextFor? item.name).map fun context => ⟨Text.upper item.value, context⟩

/-- A call that can change a session. -/
inductive Call where
  | analyse (request : Request)
  | readPolicy (document : Text)

namespace Call

/-- The rules that a call has analysed. -/
def requests (config : Config) : Call → List Request
  | analyse request => [request]
  | readPolicy document =>
    match Markup.Element.ofText? document with
    | none => []
    | some root => (Export.policyAttributes root).filterMap (Request.ofAttribute? config)

end Call

namespace Session

def perform (session : Session) : Call → Session
  | .analyse request => (session.analyse request.text request.context).2
  | .readPolicy document => (session.readPolicy document).2

def performAll (session : Session) (calls : List Call) : Session := calls.foldl perform session

/-! ### Calls are runs -/

theorem config_analyse (session : Session) (text : Text) (context : Context) :
    (session.analyse text context).2.config = session.config := by
  obtain ⟨rule, -, hanalyse⟩ | ⟨outcome, -, hanalyse⟩ := session.analyse_cases text context
  · rw [hanalyse]
    rfl
  · rw [hanalyse]

theorem config_run (session : Session) (requests : List Request) :
    (session.run requests).2.config = session.config := by
  induction requests generalizing session with
  | nil => rfl
  | cons request requests ih => exact (ih _).trans (config_analyse session _ _)

theorem run_append (session : Session) (requests others : List Request) :
    (session.run (requests ++ others)).2 = ((session.run requests).2.run others).2 := by
  induction requests generalizing session with
  | nil => rfl
  | cons request requests ih => exact ih _

/-- The attributes of a policy are counted and added as the rules in them are. -/
theorem readAttributes_eq (session : Session) (summary : Summary) (items : List ObjectAttribute) :
    session.readAttributes summary items =
      let requests := items.filterMap (Request.ofAttribute? session.config)
      ((requests.map Request.outcome).foldl Summary.count summary, (session.run requests).2) := by
  induction items generalizing session summary with
  | nil => rfl
  | cons item items ih =>
    simp only [readAttributes, ih, readAttribute, List.filterMap_cons, Request.ofAttribute?]
    cases session.config.contextFor? item.name with
    | none => rfl
    | some context =>
      simp only [Option.map_some, config_analyse, List.map_cons, List.foldl_cons]
      rw [← session.outcome_analyse]
      rfl

/-- Reading a policy counts and adds the rules of a well-formed document and does nothing with any
other text. -/
theorem readPolicy_eq (session : Session) (document : Text) :
    session.readPolicy document =
      let requests := (Call.readPolicy document).requests session.config
      ((Markup.Element.ofText? document).map fun _ =>
          (requests.map Request.outcome).foldl Summary.count .zero,
        (session.run requests).2) := by
  rw [readPolicy, Call.requests]
  cases Markup.Element.ofText? document with
  | none => rfl
  | some root =>
    simp only [readTree, readAttributes_eq]
    rfl

theorem perform_eq_run (session : Session) (call : Call) :
    session.perform call = (session.run (call.requests session.config)).2 := by
  cases call with
  | analyse request => rfl
  | readPolicy document => rw [perform, readPolicy_eq]

theorem performAll_eq_run (session : Session) (calls : List Call) : session.performAll calls =
    (session.run (calls.flatMap (Call.requests session.config))).2 := by
  induction calls generalizing session with
  | nil => rfl
  | cons call calls ih =>
    have hconfig : (session.perform call).config = session.config := by
      rw [perform_eq_run, config_run]
    rw [List.flatMap_cons, run_append, ← perform_eq_run, ← hconfig]
    exact ih (session.perform call)

/-- What is kept by adding what a rule contributes is kept by all calls. -/
theorem performAll_induction {Holds : Session → Prop}
    (hstep : ∀ (session : Session) (request : Request) (rule : ParsedRule), Holds session →
      ParsedRule.read request.text request.context = .ok rule →
      Holds (session.add (Contribution.ofRule request.text request.context rule.factor)))
    {session : Session} (hstart : Holds session) (calls : List Call) :
    Holds (session.performAll calls) := by
  rw [performAll_eq_run]
  exact @run_induction (fun _ => Holds) (fun _ => hstep) _ [] session hstart

theorem autnum_performAll (autnum : Text) (config : Config) (calls : List Call) :
    ((new autnum config).performAll calls).autnum = autnum :=
  @performAll_induction (fun session => session.autnum = autnum) (fun _ _ _ hsession _ => hsession)
    _ rfl calls

end Session

end RoutingPolicy
