import RoutingPolicy.Proofs.Rule.Characters
import RoutingPolicy.Proofs.Session.References
import RoutingPolicy.Proofs.Text.Line

/-!
# Where filters come from

A catalog that begins empty has no text that is not the filter of a rule that was read. So a line end
stands in a text of the catalog only if the value of some attribute brings it in.
-/

namespace RoutingPolicy

open Text
open Markup (Element)

namespace Session

theorem get?_foldl_add_cases (contributions : List Contribution) {session : Session}
    {fingerprint : Fingerprint} {filter : Text}
    (hfilter : (contributions.foldl add session).catalog.get? fingerprint = some filter) :
    session.catalog.get? fingerprint = some filter ∨
      ∃ contribution ∈ contributions, contribution.filter = some filter := by
  induction contributions generalizing session with
  | nil => exact .inl hfilter
  | cons contribution contributions ih =>
    obtain hnext | ⟨later, hlater, hfound⟩ := ih hfilter
    · obtain hold | ⟨hnew, -⟩ := get?_add_cases hnext
      · exact .inl hold
      · exact .inr ⟨contribution, List.mem_cons_self, hnew⟩
    · exact .inr ⟨later, List.mem_cons_of_mem contribution hlater, hfound⟩

theorem exists_rule_of_catalog {autnum : Text} {config : Config} {requests : List Request}
    {fingerprint : Fingerprint} {filter : Text}
    (hfilter : ((new autnum config).run requests).2.catalog.get? fingerprint = some filter) :
    ∃ request ∈ requests, ∃ rule, ParsedRule.read request.text request.context = .ok rule ∧
      rule.factor.filter = filter := by
  rw [run_eq] at hfilter
  obtain hnew | ⟨contribution, hmem, hfilter⟩ := get?_foldl_add_cases _ hfilter
  · rw [new, Catalog.get?_empty] at hnew
    exact absurd hnew.symm (Option.some_ne_none filter)
  · obtain ⟨request, hrequest, hcontribution⟩ := List.mem_filterMap.1 hmem
    obtain ⟨rule, hread, rfl⟩ := Request.exists_rule_of_contribution? hcontribution
    refine ⟨request, hrequest, rule, hread, ?_⟩
    rw [Contribution.ofRule] at hfilter
    split at hfilter
    next => exact absurd hfilter.symm (Option.some_ne_none filter)
    next => exact Option.some.inj hfilter

/-- A line end in a filter stands in the value of some attribute. -/
theorem exists_value_of_catalog {autnum : Text} {config : Config} {root : Element}
    {fingerprint : Fingerprint} {filter : Text}
    (hfilter : ((new autnum config).readTree root).2.catalog.get? fingerprint = some filter)
    (hmem : '\n' ∈ filter) : ∃ item ∈ Export.policyAttributes root, '\n' ∈ item.value := by
  rw [readTree, readAttributes_eq] at hfilter
  obtain ⟨request, hrequest, rule, hread, rfl⟩ := exists_rule_of_catalog hfilter
  obtain ⟨item, hitem, hrequest⟩ := List.mem_filterMap.1 hrequest
  obtain ⟨context, -, rfl⟩ := Option.map_eq_some_iff.1 hrequest
  have hforeign : Foreign '\n' := by decide
  have hupper : '\n' ∈ upper item.value := ParsedRule.mem_of_mem_filter hforeign hread hmem
  exact ⟨item, hitem, mem_of_mem_upper (by decide) (by decide) hupper⟩

end Session

end RoutingPolicy
