import RoutingPolicy.Proofs.Rule.Expression
import RoutingPolicy.Proofs.Rule.FamilyPrefix
import RoutingPolicy.Proofs.Rule.Forms

/-!
# The characters of a filter

A filter is cut out of its rule, and on the way the parts of the rule are joined with spaces and with the
names of keywords. So what is neither a space nor a capital letter stands in the filter only if it stands
in the rule. Blanks other than the space are not touched inside a filter.
-/

namespace RoutingPolicy

open Text

namespace Text

theorem trim_subset (text : Text) : trim text ⊆ text := by
  obtain ⟨before, after, -, -, htext⟩ := exists_eq_append_trim text
  intro c hc
  rw [htext]
  exact List.mem_append_left after (List.mem_append_right before hc)

end Text

/-- A character that no joining of parts brings in. -/
def Foreign (c : Char) : Prop := c ≠ ' ' ∧ c.isUpper = false

instance (c : Char) : Decidable (Foreign c) := inferInstanceAs (Decidable (_ ∧ _))

section Foreign

variable {c : Char} {text : Text}

theorem Foreign.not_mem_name (hc : Foreign c) (keyword : Keyword) : c ∉ keyword.name := by
  have hname : keyword.name.all Char.isUpper = true := by cases keyword <;> decide
  intro hmem
  exact Bool.false_ne_true (hc.2.symm.trans (List.all_eq_true.1 hname c hmem))

theorem Foreign.not_mem_anyFilter (hc : Foreign c) : c ∉ anyFilter := by
  have hany : anyFilter.all Char.isUpper = true := by decide
  intro hmem
  exact Bool.false_ne_true (hc.2.symm.trans (List.all_eq_true.1 hany c hmem))

namespace Decomposition

theorem mem_of_mem_clause (hc : Foreign c) {keyword : Keyword}
    (hmem : c ∈ clause keyword (trim text)) : c ∈ text := by
  have hname := hc.not_mem_name keyword
  unfold clause at hmem
  split at hmem
  next => exact absurd hmem hname
  next =>
    rw [List.mem_append, List.mem_append, List.mem_singleton] at hmem
    rcases hmem with (hmem | hspace) | hmem
    · exact absurd hmem hname
    · exact absurd hspace hc.1
    · exact trim_subset text hmem

theorem Counts.subset {rule part : Text} (hcounts : Counts rule part) : part ⊆ rule := by
  cases hcounts with
  | @group inside hgroup =>
    have hinside : inside ⊆ ['{'] ++ inside ++ ['}'] := fun _ hmem =>
      List.mem_append_left _ (List.mem_append_right _ hmem)
    exact List.Subset.trans (trim_subset inside) (List.Subset.trans hinside hgroup.isPrefix.subset)
  | @refined before word after _ _ hrule _ _ =>
    rw [hrule]
    exact fun _ hmem => List.mem_append_left _ (List.mem_append_left _ (trim_subset before hmem))
  | whole => exact List.Subset.refl _

theorem Divides.subset {part selector : Text} {isDefault : Bool} {filterClause : Option Text}
    (hdivides : Divides part isDefault selector filterClause) : selector ⊆ part := by
  cases hdivides with
  | filter _ _ hcut =>
    rw [hcut.eq_append]
    exact fun _ hmem => List.mem_append_left _ (List.mem_append_left _ hmem)
  | missing => exact List.Subset.refl _

theorem Divides.mem_of_mem_clause {part selector filterClause : Text} {isDefault : Bool}
    (hc : Foreign c) (hdivides : Divides part isDefault selector (some filterClause))
    (hmem : c ∈ filterClause) : c ∈ part := by
  generalize hsome : some filterClause = clause? at hdivides
  cases hdivides with
  | filter _ _ hcut =>
    cases hsome
    rw [hcut.eq_append]
    exact List.mem_append_right _ (Decomposition.mem_of_mem_clause hc hmem)
  | missing =>
    split at hsome
    next =>
      cases hsome
      exact absurd hmem hc.not_mem_anyFilter
    next => cases hsome

theorem Leads.mem_of_mem {selector factor : Text} (hc : Foreign c) (hleads : Leads selector factor)
    (hmem : c ∈ factor) : c ∈ selector := by
  cases hleads with
  | fromPeer hcut | toPeer _ hcut =>
    rw [hcut.eq_append]
    exact List.mem_append_right _ (Decomposition.mem_of_mem_clause hc hmem)

/-- What is foreign in the parts of a rule comes from the rule. -/
theorem mem_of_decompose (hc : Foreign c) {isDefault : Bool} {decomposition : Decomposition}
    (hdecompose : decompose text isDefault = .ok decomposition)
    (hmem : c ∈ decomposition.factor ∨ c ∈ decomposition.filterClause.getD []) : c ∈ text := by
  have hparts := decomposes_decompose text isDefault
  rw [hdecompose] at hparts
  cases hparts with
  | @parts part selector factor filterClause hcounts hdivides hleads =>
    refine trim_subset text (hcounts.subset ?_)
    rcases hmem with hmem | hmem
    · exact hdivides.subset (hleads.mem_of_mem hc hmem)
    · cases filterClause with
      | none => exact absurd hmem List.not_mem_nil
      | some filterClause => exact hdivides.mem_of_mem_clause hc hmem

end Decomposition

namespace Factor

theorem dropSemicolon_subset (text : Text) : dropSemicolon text ⊆ text := by
  unfold dropSemicolon
  split
  next =>
    obtain ⟨blanks, -, hblanks⟩ := exists_eq_trimEnd_append text.dropLast
    intro c hmem
    refine List.dropLast_subset text ?_
    rw [hblanks]
    exact List.mem_append_left blanks hmem
  next => exact List.Subset.refl _

theorem mem_of_mem_joined (hc : c ≠ ' ') {factor filterClause : Text}
    (hmem : c ∈ joined factor filterClause) : c ∈ factor ∨ c ∈ filterClause := by
  have hjoin := trim_subset _ (dropSemicolon_subset _ hmem)
  rw [List.mem_append, List.mem_append, List.mem_singleton] at hjoin
  rcases hjoin with (hfactor | hspace) | hclause
  · exact .inl hfactor
  · exact absurd hspace hc
  · exact .inr hclause

theorem FilterBehind.subset {boundary : Keyword} {filter : Text}
    (hfilter : FilterBehind boundary text filter) : filter ⊆ text := by
  cases hfilter with
  | @cut before word after hcut _ _ _ =>
    rw [hcut.eq_append]
    exact fun _ hmem => List.mem_append_right _ (trim_subset after hmem)

theorem mem_of_mem_filter (hc : Foreign c) {factor filterClause : Text} {result : Factor}
    (hread : read factor filterClause = .ok result) (hmem : c ∈ result.filter) :
    c ∈ factor ∨ c ∈ filterClause := by
  cases reads_of_read hread with
  | alone | unfiltered => exact absurd hmem hc.not_mem_anyFilter
  | accept _ _ _ hfilter | announce _ _ _ hfilter | networks _ _ _ _ hfilter =>
    exact mem_of_mem_joined hc.1 (hfilter.subset hmem)

end Factor

theorem ParsedRule.mem_of_mem_filter (hc : Foreign c) {context : Context} {rule : ParsedRule}
    (hread : read text context = .ok rule) (hmem : c ∈ rule.factor.filter) : c ∈ text := by
  have hbody : (splitFamily text context).2 ⊆ text := (suffix_splitFamily text context).subset
  obtain ⟨decomposition, hdecompose, hfactor⟩ := exists_parts_of_read hread
  exact hbody (Decomposition.mem_of_decompose hc hdecompose
    (Factor.mem_of_mem_filter hc hfactor hmem))

end Foreign

end RoutingPolicy
