import RoutingPolicy.Proofs.Rule.FamilyPrefix
import RoutingPolicy.Proofs.Rule.Parts

/-!
# Families of rules written in parts

The family is read from a leading `AFI` and the part after it, and comes off together with both.
-/

namespace RoutingPolicy

open Text

namespace AddressFamily

variable {family : AddressFamily} {parts : List Text}

theorem resolve_spaced (hfamily : family ∈ known) (hparts : ∀ part ∈ parts, Solid part)
    (hne : parts ≠ []) :
    resolve (spaced (Keyword.afi.name :: family.name :: parts)) = (family, spaced parts) := by
  have htext : spaced (Keyword.afi.name :: family.name :: parts) =
      written family (spaced parts) := by
    obtain ⟨part, parts, rfl⟩ := List.exists_cons_of_ne_nil hne
    rw [spaced_cons, trailing_cons, trailing_cons_eq, written]
    simp only [List.append_assoc]
  rw [htext, (Writable.named hfamily).resolve_written (solid_spaced hparts hne).trimmed.1]

/-- A rule that begins with another keyword names no family. -/
theorem resolve_eq_any {lead : Keyword} (hlead : lead = .fromPeer ∨ lead = .toPeer)
    (parts : List Text) :
    resolve (spaced (lead.name :: parts)) = (any, spaced (lead.name :: parts)) := by
  have hnone : dropHead? Keyword.afi.name (spaced (lead.name :: parts)) = none := by
    rw [spaced_cons]
    rcases hlead with rfl | rfl
    · exact dropHead?_cons_of_ne (by decide) _ _
    · exact dropHead?_cons_of_ne (by decide) _ _
  exact resolve_of_none (by rw [afterKeyword?, hnone])

end AddressFamily

end RoutingPolicy
