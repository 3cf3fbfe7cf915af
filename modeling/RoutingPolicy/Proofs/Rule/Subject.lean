import RoutingPolicy.Proofs.Rule.Forms
import RoutingPolicy.Rule.Parsed

/-!
# Subjects and filters of rules that can be read

Whatever the text of a rule, the subject that is read from it is a word and no keyword, and its filter
is a text with something in it and no blanks around it.
-/

namespace RoutingPolicy

open Text

namespace Factor

/-- The subject is a word, and the filter is not empty. -/
structure WellFormed (factor : Factor) : Prop where
  subject : PlainWord factor.subject
  filter : Solid factor.filter

theorem wellFormed_any {subject : Text} (hsubject : PlainWord subject) :
    (any subject).WellFormed where
  subject := hsubject
  filter := by
    have hany : PlainWord anyFilter := by decide
    exact hany.solid

theorem wellFormed_of_read {factor filterClause : Text} {result : Factor}
    (hread : read factor filterClause = .ok result) : result.WellFormed := by
  cases reads_of_read hread with
  | alone _ _ hsubject | unfiltered _ _ hsubject _ _ _ => exact wellFormed_any hsubject
  | accept _ _ hsubject hfilter | announce _ _ hsubject hfilter
  | networks _ _ hsubject _ hfilter => exact ⟨hsubject, hfilter.solid⟩

end Factor

theorem ParsedRule.wellFormed_factor {text : Text} {context : Context} {rule : ParsedRule}
    (hread : read text context = .ok rule) : rule.factor.WellFormed := by
  obtain ⟨decomposition, -, hfactor⟩ := exists_parts_of_read hread
  exact Factor.wellFormed_of_read hfactor

end RoutingPolicy
