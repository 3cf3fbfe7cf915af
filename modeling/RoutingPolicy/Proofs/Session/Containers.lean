import Mathlib.Algebra.Ring.Nat
import RoutingPolicy.Proofs.Session.Isolation

/-!
# Exports in several parts

The objects of an export stand in containers, which are inside the root or are the root itself. The
attributes of an export are those of its containers in order, and what is read in two steps is counted
in two steps. So an export may be handed over in parts, with one container for each part.
-/

namespace RoutingPolicy

open Markup (Element)

/-- The counts of several documents together. -/
def Summary.sum (summaries : List Summary) : Summary where
  accepted := (summaries.map accepted).sum
  mismatched := (summaries.map mismatched).sum
  failed := (summaries.map failed).sum

theorem Summary.count_eq_sum (summary : Summary) (outcome : Except RuleError Outcome) :
    summary.count outcome = .sum [summary, zero.count outcome] := by
  rcases outcome with error | (subject | family) <;> simp [sum, count, zero]

namespace Export

theorem policyAttributes_of_container {container : Element}
    (hname : container.name = "objects".toList) :
    policyAttributes container = (objectsIn policyType container).flatMap attributesOfObject := by
  rw [policyAttributes, objects, containers, if_pos hname, List.flatMap_singleton]

/-- Apart from its containers nothing in the root of an export matters. -/
theorem policyAttributes_eq_flatMap {root : Element} (hroot : root.name ≠ "objects".toList) :
    policyAttributes root = (root.childrenNamed "objects".toList).flatMap policyAttributes := by
  rw [policyAttributes, objects, containers, if_neg hroot, List.flatMap_assoc]
  refine List.flatMap_congr fun container hcontainer => ?_
  have hname : container.name = "objects".toList := by
    simpa using (List.mem_filter.1 hcontainer).2
  exact (policyAttributes_of_container hname).symm

end Export

namespace Session

/-- Reads the policies in trees in order. The result lists the summary of each one, and the session
after the last one. -/
def readTrees (session : Session) : List Element → List Summary × Session
  | [] => ([], session)
  | root :: roots =>
    let (summary, next) := session.readTree root
    let (summaries, last) := next.readTrees roots
    (summary :: summaries, last)

/-- Reads the policies in documents in order. There is no summary for a text that is no document. -/
def readPolicies (session : Session) : List Text → List (Option Summary) × Session
  | [] => ([], session)
  | document :: documents =>
    let (summary, next) := session.readPolicy document
    let (summaries, last) := next.readPolicies documents
    (summary :: summaries, last)

theorem readPolicy_of_root (session : Session) {document : Text} {root : Element}
    (hdocument : Element.ofText? document = some root) :
    session.readPolicy document =
      (some (session.readTree root).1, (session.readTree root).2) := by
  rw [readPolicy, hdocument]

/-- Documents are read as their roots are. -/
theorem readPolicies_of_roots (session : Session) {documents : List Text} {roots : List Element}
    (hdocuments : documents.map Element.ofText? = roots.map some) :
    session.readPolicies documents =
      ((session.readTrees roots).1.map some, (session.readTrees roots).2) := by
  induction documents generalizing session roots with
  | nil =>
    obtain rfl : roots = [] := List.map_eq_nil_iff.1 hdocuments.symm
    rfl
  | cons document documents ih =>
    cases roots with
    | nil => exact absurd hdocuments (List.cons_ne_nil _ _)
    | cons root roots =>
      obtain ⟨hdocument, hdocuments⟩ := List.cons_eq_cons.1 hdocuments
      rw [readPolicies, session.readPolicy_of_root hdocument, readTrees]
      simp only [ih _ hdocuments]
      rfl

/-! ### Counting in steps -/

/-- Attributes may be read in two steps, and the second step counts on. -/
theorem readAttributes_append (session : Session) (summary : Summary)
    (items others : List ObjectAttribute) :
    session.readAttributes summary (items ++ others) =
      let (counted, next) := session.readAttributes summary items
      next.readAttributes counted others := by
  induction items generalizing session summary with
  | nil => rfl
  | cons item items ih => exact ih _ _

/-- What is counted on top of a summary does not depend on it. -/
theorem readAttributes_eq_sum (session : Session) (summary : Summary)
    (items : List ObjectAttribute) :
    session.readAttributes summary items =
      let (counted, last) := session.readAttributes .zero items
      (.sum [summary, counted], last) := by
  induction items generalizing session summary with
  | nil => simp [readAttributes, Summary.sum, Summary.zero]
  | cons item items ih =>
    rw [readAttributes, readAttributes]
    simp only [ih _ (Option.elim _ _ _)]
    refine Prod.ext ?_ rfl
    cases (session.readAttribute item).1 with
    | none => simp [Summary.sum, Summary.zero]
    | some outcome =>
      rw [Option.elim_some, Option.elim_some, summary.count_eq_sum]
      simp [Summary.sum, Nat.add_assoc]

/-- Trees that are read in order are read as one tree with all of their attributes. -/
theorem readAttributes_flatMap (session : Session) (summary : Summary) (roots : List Element) :
    session.readAttributes summary (roots.flatMap Export.policyAttributes) =
      let (summaries, last) := session.readTrees roots
      (.sum (summary :: summaries), last) := by
  induction roots generalizing session summary with
  | nil => simp [readTrees, readAttributes, Summary.sum]
  | cons root roots ih =>
    rw [List.flatMap_cons, readAttributes_append, readAttributes_eq_sum, readTrees]
    simp only [readTree, ih]
    simp [Summary.sum, Nat.add_assoc]

theorem readTree_eq_readTrees (session : Session) {root : Element}
    (hroot : root.name ≠ "objects".toList) :
    session.readTree root =
      let (summaries, last) := session.readTrees (root.childrenNamed "objects".toList)
      (.sum summaries, last) := by
  rw [readTree, Export.policyAttributes_eq_flatMap hroot, readAttributes_flatMap]
  simp [Summary.sum, Summary.zero]

/-- An export may be cut into its containers. Reading them one after the other, as trees or as
documents of their own, leads to the same session as reading the whole, and what is counted in them adds
up to what is counted in the whole. So what stands around a single container does not matter. -/
theorem readPolicy_in_parts (session : Session) {document : Text} {root : Element}
    (hdocument : Element.ofText? document = some root) (hroot : root.name ≠ "objects".toList) :
    let containers := root.childrenNamed "objects".toList
    let (summaries, last) := session.readTrees containers
    session.readPolicy document = (some (.sum summaries), last) ∧
      (∀ parts : List Text, parts.map Element.ofText? = containers.map some →
        session.readPolicies parts = (summaries.map some, last)) ∧
      ∀ part : Text, containers.map some = [Element.ofText? part] →
        session.readPolicy part = session.readPolicy document := by
  have hwhole : session.readPolicy document =
      (some (.sum (session.readTrees (root.childrenNamed "objects".toList)).1),
        (session.readTrees (root.childrenNamed "objects".toList)).2) := by
    rw [session.readPolicy_of_root hdocument, session.readTree_eq_readTrees hroot]
  refine ⟨hwhole, fun parts hparts => session.readPolicies_of_roots hparts, fun part hpart => ?_⟩
  obtain ⟨container, hcontainers, hcontainer⟩ := List.map_eq_singleton_iff.1 hpart
  rw [hwhole, hcontainers, session.readPolicy_of_root hcontainer.symm]
  simp [readTrees, Summary.sum]

set_option maxRecDepth 100000 in
/-- Two containers with another element between them. -/
theorem readPolicy_in_parts_two_containers :
    let session := new "AS64500".toList .standard
    let container (rule : Text) : Text :=
      "<objects><object type=\"aut-num\"><attributes>".toList ++
        "<attribute name=\"import\" value=\"".toList ++ rule ++
        "\"/></attributes></object></objects>".toList
    let parts := [container "FROM AS1".toList, container "FROM".toList]
    let document := "<r>".toList ++ "<b/>".toList.intercalate parts ++ "</r>".toList
    ∃ root, Element.ofText? document = some root ∧ root.name ≠ "objects".toList ∧
      parts.map Element.ofText? = (root.childrenNamed "objects".toList).map some ∧
      ∃ summaries last, session.readPolicy document = (some (.sum summaries), last) ∧
        session.readPolicies parts = (summaries.map some, last) := by
  intro session container parts document
  let containerOf (rule : Text) : Element :=
    .mk "objects".toList [] [.mk "object".toList [⟨none, "type".toList, "aut-num".toList⟩]
      [.mk "attributes".toList [] [.mk "attribute".toList
        [⟨none, "name".toList, "import".toList⟩, ⟨none, "value".toList, rule⟩] []]]]
  let root : Element := .mk "r".toList []
    [containerOf "FROM AS1".toList, .mk "b".toList [] [], containerOf "FROM".toList]
  have hdocument : Element.ofText? document = some root := by with_unfolding_all rfl
  have hroot : root.name ≠ "objects".toList := by decide
  have hparts : parts.map Element.ofText? = (root.childrenNamed "objects".toList).map some := by
    with_unfolding_all rfl
  obtain ⟨hwhole, hall, -⟩ := session.readPolicy_in_parts hdocument hroot
  exact ⟨root, hdocument, hroot, hparts, _, _, hwhole, hall parts hparts⟩

end Session

end RoutingPolicy
