import RoutingPolicy.Proofs.Filter.Catalog
import RoutingPolicy.Proofs.Session.Call
import RoutingPolicy.Proofs.Session.Grouping

/-!
# Failures do not spread

A rule that is refused or skipped leaves a session as it is, and an accepted rule changes nothing but
the peer that it names and the one place in the catalog where its filter belongs. So the rules of a
policy that are not accepted can be left out: what remains is accepted as before and leads to the same
session. The summary of a policy tells the attributes that hold a rule apart by what became of it.
-/

namespace RoutingPolicy

/-- What became of a rule, without subject, family or cause. -/
inductive Verdict where
  | accepted
  | mismatched
  | failed
deriving DecidableEq

namespace Verdict

def ofOutcome : Except RuleError Outcome → Verdict
  | .ok (.accepted _) => accepted
  | .ok (.mismatch _) => mismatched
  | .error _ => failed

theorem ofOutcome_eq_accepted_iff {outcome : Except RuleError Outcome} :
    ofOutcome outcome = accepted ↔ ∃ subject, outcome = .ok (.accepted subject) := by
  match outcome with
  | .ok (.accepted subject) => simp [ofOutcome]
  | .ok (.mismatch _) => simp [ofOutcome]
  | .error _ => simp [ofOutcome]

/-- Every rule has one of three verdicts. -/
theorem count_add_count_add_count (verdicts : List Verdict) :
    verdicts.count accepted + verdicts.count mismatched + verdicts.count failed =
      verdicts.length := by
  induction verdicts with
  | nil => rfl
  | cons verdict verdicts ih =>
    cases verdict <;> simp only [List.count_cons, List.length_cons] <;> simp <;> omega

end Verdict

namespace Summary

def ofVerdicts (verdicts : List Verdict) : Summary where
  accepted := verdicts.count .accepted
  mismatched := verdicts.count .mismatched
  failed := verdicts.count .failed

theorem foldl_count (outcomes : List (Except RuleError Outcome)) (verdicts : List Verdict) :
    outcomes.foldl count (ofVerdicts verdicts) =
      ofVerdicts (verdicts ++ outcomes.map Verdict.ofOutcome) := by
  induction outcomes generalizing verdicts with
  | nil => rw [List.foldl_nil, List.map_nil, List.append_nil]
  | cons outcome outcomes ih =>
    have hstep : (ofVerdicts verdicts).count outcome =
        ofVerdicts (verdicts ++ [Verdict.ofOutcome outcome]) := by
      match outcome with
      | .ok (.accepted _) => simp [ofVerdicts, count, Verdict.ofOutcome]
      | .ok (.mismatch _) => simp [ofVerdicts, count, Verdict.ofOutcome]
      | .error _ => simp [ofVerdicts, count, Verdict.ofOutcome]
    rw [List.foldl_cons, hstep, ih, List.map_cons, List.append_assoc, List.singleton_append]

end Summary

/-- A catalog has at most one text more than an earlier one. -/
def Catalog.AddsAtMostOne (later earlier : Catalog) : Prop :=
  later = earlier ∨ ∃ filter, earlier.get? (Fingerprint.ofText filter) = none ∧
    ∀ fingerprint, later.get? fingerprint =
      if Fingerprint.ofText filter = fingerprint then some filter else earlier.get? fingerprint

theorem Catalog.addsAtMostOne_insert (catalog : Catalog) (filter : Text) :
    (catalog.insert filter).AddsAtMostOne catalog := by
  cases htaken : catalog.get? (Fingerprint.ofText filter) with
  | some text =>
    refine .inl (insert_eq ?_)
    rw [contains_eq_isSome, htaken, Option.isSome_some]
  | none =>
    refine .inr ⟨filter, htaken, fun fingerprint => ?_⟩
    rw [get?_insert]
    by_cases hfilter : Fingerprint.ofText filter = fingerprint
    · rw [if_pos hfilter, if_pos ⟨hfilter, hfilter ▸ htaken⟩]
    · rw [if_neg hfilter, if_neg fun hnew => hfilter hnew.1]

namespace Session

/-- A session differs from an earlier one in the peer of one name, and by at most one text in the
catalog. -/
structure ChangedAt (later earlier : Session) (subject : Text) : Prop where
  autnum : later.autnum = earlier.autnum
  config : later.config = earlier.config
  contains : later.directory.contains subject = true
  others : ∀ identifier, identifier ≠ subject →
    later.directory.get? identifier = earlier.directory.get? identifier
  catalog : later.catalog.AddsAtMostOne earlier.catalog

theorem changedAt_add (session : Session) {contribution : Contribution} :
    (session.add contribution).ChangedAt session contribution.subject where
  autnum := rfl
  config := rfl
  contains := by
    rw [add, Directory.contains_eq_isSome, Directory.get?_insert, contribution.identifier_peer,
      if_pos rfl]
    cases session.directory.get? contribution.subject <;> rfl
  others identifier hother := by
    rw [add, Directory.get?_insert, contribution.identifier_peer, if_neg (Ne.symm hother)]
  catalog := by
    rw [add]
    cases contribution.filter with
    | none => exact .inl rfl
    | some filter => exact session.catalog.addsAtMostOne_insert filter

/-- The entries of a trace with the rules that were accepted. -/
def acceptedEntries (trace : List (Request × Except RuleError Outcome)) :
    List (Request × Except RuleError Outcome) :=
  trace.filter fun (_, outcome) => Verdict.ofOutcome outcome = .accepted

/-- The rules that a run does not accept can be left out of it. -/
theorem run_acceptedEntries (session : Session) (requests : List Request) :
    session.run ((acceptedEntries (session.run requests).1).map Prod.fst) =
      (acceptedEntries (session.run requests).1, (session.run requests).2) := by
  induction requests generalizing session with
  | nil => rfl
  | cons request requests ih =>
    rw [run]
    obtain ⟨rule, -, hanalyse⟩ | ⟨outcome, houtcome, hanalyse⟩ :=
      session.analyse_cases request.text request.context
    · have haccepted := Verdict.ofOutcome_eq_accepted_iff.2 ⟨rule.factor.subject, rfl⟩
      simp only [hanalyse, acceptedEntries]
      rw [List.filter_cons_of_pos (by simp [haccepted]), List.map_cons, run]
      simp only [hanalyse]
      rw [← acceptedEntries, ih]
    · have hother : Verdict.ofOutcome outcome ≠ .accepted := by
        intro haccepted
        obtain ⟨subject, hsubject⟩ := Verdict.ofOutcome_eq_accepted_iff.1 haccepted
        exact houtcome subject hsubject
      simp only [hanalyse, acceptedEntries]
      rw [List.filter_cons_of_neg (by simp [hother]), ← acceptedEntries, ih]

theorem analyse_changes (session : Session) (text : Text) (context : Context) :
    match session.analyse text context with
    | (.ok (.accepted subject), later) => later.ChangedAt session subject
    | (.ok (.mismatch _), later) | (.error _, later) => later = session := by
  obtain ⟨rule, -, hanalyse⟩ | ⟨outcome, houtcome, hanalyse⟩ := session.analyse_cases text context
  · rw [hanalyse]
    exact session.changedAt_add
  · rw [hanalyse]
    match outcome with
    | .ok (.accepted subject) => exact absurd rfl (houtcome subject)
    | .ok (.mismatch _) => rfl
    | .error _ => rfl

/-- The verdicts of the rules that a session has analysed. -/
def verdicts (trace : List (Request × Except RuleError Outcome)) : List Verdict :=
  trace.map fun (_, outcome) => Verdict.ofOutcome outcome

theorem length_verdicts_run (session : Session) (requests : List Request) :
    (verdicts (session.run requests).1).length = requests.length := by
  rw [verdicts, List.length_map, run_eq, List.length_map]

/-- Reading a well-formed document is a run with the rules in it, and the summary counts their
verdicts. -/
theorem readPolicy_of_ofText? (session : Session) {document : Text} {root : Markup.Element}
    (hdocument : Markup.Element.ofText? document = some root) :
    session.readPolicy document =
      let requests := (Export.policyAttributes root).filterMap (Request.ofAttribute? session.config)
      (some (Summary.ofVerdicts (verdicts (session.run requests).1)), (session.run requests).2) := by
  simp only [readPolicy_eq, Call.requests, hdocument, Option.map_some]
  generalize (Export.policyAttributes root).filterMap _ = requests
  have hverdicts : (requests.map Request.outcome).map Verdict.ofOutcome =
      verdicts (session.run requests).1 := by
    rw [verdicts, run_eq, List.map_map, List.map_map]
    rfl
  have hsummary := Summary.foldl_count (requests.map Request.outcome) []
  rw [List.nil_append, hverdicts] at hsummary
  rw [← hsummary]
  rfl

/-- A rule that is not accepted changes nothing, and one that is accepted changes its own peer and at
most one place of the catalog. A text that is no document changes nothing either. What becomes of the
rules in a document is counted, each attribute that holds one once, and those that are accepted lead to
the same session by themselves. -/
theorem changed_by_accepted_only (session : Session) :
    (∀ text context, match session.analyse text context with
      | (.ok (.accepted subject), later) => later.ChangedAt session subject
      | (.ok (.mismatch _), later) | (.error _, later) => later = session) ∧
    ∀ document, match Markup.Element.ofText? document with
      | none => session.readPolicy document = (none, session)
      | some root =>
        let items := Export.policyAttributes root
        let (trace, last) := session.run (items.filterMap (Request.ofAttribute? session.config))
        let accepted := acceptedEntries trace
        let summary := Summary.ofVerdicts (verdicts trace)
        session.readPolicy document = (some summary, last) ∧
          session.run (accepted.map Prod.fst) = (accepted, last) ∧
          summary.accepted + summary.mismatched + summary.failed =
            items.countP fun item => (session.config.contextFor? item.name).isSome := by
  refine ⟨session.analyse_changes, fun document => ?_⟩
  cases hdocument : Markup.Element.ofText? document with
  | none => rw [readPolicy, hdocument]
  | some root =>
    refine ⟨session.readPolicy_of_ofText? hdocument, session.run_acceptedEntries _, ?_⟩
    refine (Verdict.count_add_count_add_count _).trans ?_
    rw [length_verdicts_run, List.length_filterMap_eq_countP]
    simp only [Request.ofAttribute?, Option.isSome_map]

end Session

end RoutingPolicy
