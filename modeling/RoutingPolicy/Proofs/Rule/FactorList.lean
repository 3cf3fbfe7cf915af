import RoutingPolicy.Proofs.Rule.Decomposition
import RoutingPolicy.Proofs.Rule.Factor
import RoutingPolicy.Rule.Parsed

/-!
# Lists of factors

A rule in braces may list several factors. The decomposition splits it at the first filter keyword,
the forms take the filter from behind the last one: what is read is the subject of the first factor
with the filter of the last.
-/

namespace RoutingPolicy

open Text

/-- A factor that can stand in a list of factors. -/
structure ListedFactor extends Factor where
  plainWord_subject : PlainWord subject
  uses_filter : Uses [] [filter]

/-- Factors of one direction in braces, at least one. -/
structure FactorList where
  direction : Direction
  first : ListedFactor
  rest : List ListedFactor

namespace FactorList

variable (list : FactorList)

def form : Factor.Form :=
  match list.direction with
  | .incoming => .importing
  | .outgoing => .exporting

/-- The context of plain rules in the direction. -/
def context (requested : IpVersions) : Context :=
  let context : Context := match list.direction with
    | .incoming => .importing false
    | .outgoing => .exporting false
  context.requesting requested

/-- The parts of one factor, with a semicolon behind its filter. -/
def factorParts (factor : ListedFactor) : List Text :=
  [list.form.lead.name, factor.subject, list.form.boundary.name, factor.filter ++ [';']]

def bodyParts : List Text := (list.first :: list.rest).flatMap list.factorParts

def toText : Text := spaced (['{'] :: list.bodyParts ++ [['}']])

def last : ListedFactor := (list.first :: list.rest).getLast (List.cons_ne_nil _ _)

/-! ### The parts -/

theorem form_mem_forms : list.form ∈ Factor.forms := by
  unfold form
  cases list.direction <;> decide

theorem uses_factorParts (factor : ListedFactor) :
    Uses [list.form.lead, list.form.boundary] (list.factorParts factor) :=
  Uses.cons (uses_name (by simp)) (Uses.cons factor.plainWord_subject.uses
    (Uses.cons (uses_name (by simp)) (factor.uses_filter.statement.mono (by simp))))

theorem uses_flatMap (factors : List ListedFactor) :
    Uses [list.form.lead, list.form.boundary] (factors.flatMap list.factorParts) :=
  Uses.flatMap fun factor _ => list.uses_factorParts factor

/-- Between the first subject and the last filter stand the other factors. -/
theorem bodyParts_eq : ∃ middle, Uses [list.form.lead, list.form.boundary] middle ∧
    list.bodyParts = list.form.lead.name :: list.first.subject :: (middle ++
      [list.form.boundary.name, list.last.filter ++ [';']]) := by
  rcases List.eq_nil_or_concat list.rest with hrest | ⟨init, last, hrest⟩
  · refine ⟨[], Uses.nil, ?_⟩
    simp [bodyParts, last, hrest, factorParts]
  · refine ⟨list.form.boundary.name :: (list.first.filter ++ [';']) ::
      (init.flatMap list.factorParts ++ [list.form.lead.name, last.subject]), ?_, ?_⟩
    · exact Uses.cons (uses_name (by simp)) (Uses.cons
        (list.first.uses_filter.statement.mono (by simp)) (Uses.append (list.uses_flatMap init)
          (Uses.cons (uses_name (by simp)) last.plainWord_subject.uses)))
    · have hlast : list.last = last := by simp [FactorList.last, hrest]
      simp [bodyParts, hlast, hrest, factorParts]

/-! ### Reading -/

theorem expression?_toText :
    Decomposition.expression? (trim list.toText) = some (spaced list.bodyParts) := by
  have huses := list.uses_flatMap (list.first :: list.rest)
  have hbraces : ∀ part ∈ ['{'] :: list.bodyParts ++ [['}']], Solid part := by
    refine List.forall_mem_append.2 ⟨List.forall_mem_cons.2 ⟨?_, huses.solid⟩, ?_⟩
    · exact IsLexeme.solid (.inr ⟨'{', rfl, rfl⟩)
    · exact List.forall_mem_singleton.2 (IsLexeme.solid (.inr ⟨'}', rfl, rfl⟩))
  have hother : Keyword.refine ∉ [list.form.lead, list.form.boundary] ∧
      Keyword.except ∉ [list.form.lead, list.form.boundary] := by
    unfold form
    cases list.direction <;> decide
  rw [toText, trim_spaced hbraces]
  exact Decomposition.expression?_grouped huses hother.1 hother.2

theorem decompose_toText (isDefault : Bool) : decompose list.toText isDefault =
    .ok ⟨spaced [list.form.lead.name, list.first.subject],
      some (spaced (list.form.boundary.name :: (list.first.filter ++ [';']) ::
        list.rest.flatMap list.factorParts))⟩ := by
  have hafter : Uses [list.form.lead, list.form.boundary]
      ((list.first.filter ++ [';']) :: list.rest.flatMap list.factorParts) :=
    Uses.cons (list.first.uses_filter.statement.mono (by simp)) (list.uses_flatMap list.rest)
  have hsubject := list.first.plainWord_subject
  have hwithout : ∀ keyword, Without keyword [list.first.subject] := hsubject.without
  have hkeywords : (list.form.lead = .fromPeer ∨ list.form.lead = .toPeer) ∧
      list.form.boundary ∈ Decomposition.filterKeywords ∧
      ∀ keyword ∈ Decomposition.filterKeywords, keyword ≠ list.form.lead := by
    unfold form
    cases list.direction <;> decide
  obtain ⟨hlead, hboundary, hother⟩ := hkeywords
  refine decompose_of_expression [] [list.first.subject] _ isDefault list.expression?_toText
    (hlead.imp id fun heq => ⟨heq, hwithout _⟩) hboundary (fun keyword _ => hwithout keyword) ?_
    (hwithout _) (List.forall_mem_append.2
      ⟨List.forall_mem_singleton.2 hsubject.solid, hafter.solid⟩)
  intro keyword hkeyword hne
  refine hafter.without keyword ?_
  simp [hother keyword hkeyword, hne]

theorem joined_factors {middle : List Text} (hbody : list.bodyParts = list.form.lead.name ::
      list.first.subject :: (middle ++ [list.form.boundary.name, list.last.filter ++ [';']]))
    (hmiddle : Uses [list.form.lead, list.form.boundary] middle) :
    Factor.joined (spaced [list.form.lead.name, list.first.subject])
      (spaced (list.form.boundary.name :: (list.first.filter ++ [';']) ::
        list.rest.flatMap list.factorParts)) =
      spaced (list.form.lead.name :: list.first.subject :: (middle ++
        list.form.boundary.name :: [list.last.filter])) := by
  have hsplit : list.bodyParts = [list.form.lead.name, list.first.subject] ++
      list.form.boundary.name :: (list.first.filter ++ [';']) ::
        list.rest.flatMap list.factorParts := rfl
  have hsolid : ∀ part ∈ list.bodyParts, Solid part :=
    (list.uses_flatMap (list.first :: list.rest)).solid
  rw [hsplit] at hsolid
  obtain ⟨hfactor, hclause⟩ := List.forall_mem_append.1 hsolid
  have hfront : Uses [list.form.lead, list.form.boundary] (list.form.lead.name ::
      list.first.subject :: (middle ++ [list.form.boundary.name])) :=
    Uses.cons (uses_name (by simp)) (Uses.cons list.first.plainWord_subject.uses
      (Uses.append hmiddle (uses_name (by simp))))
  have hdrop := Factor.dropSemicolon_spaced
    (List.forall_mem_append.2 ⟨hfront.solid, list.last.uses_filter.solid⟩)
  rw [Factor.joined, Factor.trim_factor_append hfactor hclause (List.cons_ne_nil _ _)
    (List.cons_ne_nil _ _), ← hsplit, hbody]
  simpa using hdrop

theorem read_factors :
    Factor.read (spaced [list.form.lead.name, list.first.subject])
      (spaced (list.form.boundary.name :: (list.first.filter ++ [';']) ::
        list.rest.flatMap list.factorParts)) =
      .ok ⟨list.first.subject, list.last.filter⟩ := by
  obtain ⟨middle, hmiddle, hbody⟩ := list.bodyParts_eq
  have hfilter := list.last.uses_filter
  have hdefault : list.form ≠ .default := by
    unfold form
    cases list.direction <;> decide
  have hread := Factor.read_of_joined list.form_mem_forms (list.joined_factors hbody hmiddle)
    list.first.plainWord_subject hmiddle.solid hfilter.solid (List.cons_ne_nil _ _)
    (hfilter.without _ List.not_mem_nil) fun heq => absurd heq hdefault
  rwa [spaced_singleton] at hread

theorem read_toText (requested : IpVersions) :
    ParsedRule.read list.toText (list.context requested) =
      .ok ⟨.ipv4Unicast, list.direction, false, list.first.subject, list.last.filter⟩ := by
  have hfamily : ParsedRule.splitFamily list.toText (list.context requested) =
      (.ipv4Unicast, list.toText) := by
    unfold context ParsedRule.splitFamily
    cases list.direction <;> rfl
  simp only [ParsedRule.read, hfamily, decompose_toText, Option.getD_some, read_factors]
  unfold context
  cases list.direction <;> rfl

end FactorList

namespace ParsedRule

/-- A list of factors is read as one factor, which has the subject of the first and the filter of
the last. It is the first factor only if these two have the same filter, as in a list of one. -/
theorem read_factorList (list : FactorList) (requested : IpVersions) :
    read list.toText (list.context requested) =
        .ok ⟨.ipv4Unicast, list.direction, false, list.first.subject, list.last.filter⟩ ∧
      (read list.toText (list.context requested) =
          .ok ⟨.ipv4Unicast, list.direction, false, list.first.toFactor⟩ ↔
        list.last.filter = list.first.filter) := by
  have hread := list.read_toText requested
  refine ⟨hread, ?_⟩
  rw [hread]
  constructor
  · intro heq
    exact congrArg (fun rule : ParsedRule => rule.factor.filter) (Except.ok.inj heq)
  · intro hfilter
    rw [hfilter]

/-- A list of two factors of which the second peer's filter would be used for the first peer. -/
def twoFactors : FactorList where
  direction := .incoming
  first := ⟨⟨"AS1".toList, "AS-A".toList⟩, by decide, PlainWord.uses (by decide)⟩
  rest := [⟨⟨"AS2".toList, "AS-B".toList⟩, by decide, PlainWord.uses (by decide)⟩]

theorem read_two_factors_ne :
    read "{ FROM AS1 ACCEPT AS-A; FROM AS2 ACCEPT AS-B; }".toList (.importing false) ≠
      .ok ⟨.ipv4Unicast, .incoming, false, "AS1".toList, "AS-A".toList⟩ := by
  have htext : twoFactors.toText = "{ FROM AS1 ACCEPT AS-A; FROM AS2 ACCEPT AS-B; }".toList := by
    decide
  have hread := twoFactors.read_toText (.only .ipv4)
  rw [htext] at hread
  intro heq
  have hfilter := congrArg (fun rule : ParsedRule => rule.factor.filter)
    (Except.ok.inj (hread.symm.trans heq))
  exact absurd hfilter (by decide)

end ParsedRule

end RoutingPolicy
