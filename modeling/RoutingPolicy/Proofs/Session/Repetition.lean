import RoutingPolicy.Proofs.Session.Knowledge

/-!
# Rules read again

A session that has read a rule knows what it contributes, whatever else it has read since. So the rule
may be read again: the outcome depends on the rule alone, and nothing is changed. The same holds of a
policy as a whole.
-/

namespace RoutingPolicy

namespace Session

/-- A session knows what the rules of a run contribute. -/
theorem knows_run (session : Session) (requests : List Request) :
    ∀ contribution ∈ requests.filterMap Request.contribution?,
      (session.run requests).2.Knows contribution := by
  rw [run_eq]
  exact knows_foldl_add (Request.regular_contributions requests) session

theorem run_known {session : Session} {requests : List Request}
    (hknows : ∀ contribution ∈ requests.filterMap Request.contribution?,
      session.Knows contribution) : (session.run requests).2 = session := by
  rw [run_eq]
  exact foldl_add_eq_self (Request.regular_contributions requests) hknows

/-- Analysing a rule of a run again at its end has the outcome that it had before, and reading a policy
twice in a row has the same summary twice. Neither of them changes the session. -/
theorem analyse_again (session : Session) :
    (∀ before request after,
      let last := (session.run (before ++ request :: after)).2
      last.analyse request.text request.context =
        (((session.run before).2.analyse request.text request.context).1, last)) ∧
    ∀ document,
      (session.readPolicy document).2.readPolicy document = session.readPolicy document := by
  constructor
  · intro before request after last
    have hknows := session.knows_run (before ++ request :: after)
    have hsame : (last.run [request]).2 = last := by
      refine run_known fun contribution hcontribution => hknows contribution ?_
      rw [List.filterMap_append, ← List.singleton_append, List.filterMap_append]
      exact List.mem_append_right _ (List.mem_append_left _ hcontribution)
    exact Prod.ext ((last.outcome_analyse request).trans (outcome_analyse _ request).symm) hsame
  · intro document
    have hknows := session.knows_run ((Call.readPolicy document).requests session.config)
    simp only [readPolicy_eq, config_run, run_known hknows]

end Session

end RoutingPolicy
