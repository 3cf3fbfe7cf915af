import RoutingPolicy.Filter.Catalog
import RoutingPolicy.Proofs.Peering.Merge

/-!
# Catalogs seen through look-ups

Inserting a text keeps the first text under a fingerprint, so catalogs are merged like other stores,
with the merge of two texts being the first. Two catalogs are merged by inserting the texts of one into
the other, in any order.
-/

namespace RoutingPolicy

namespace Catalog

def textList (catalog : Catalog) : List Text := catalog.toList.map Prod.snd

/-- Every text is stored under its own fingerprint. -/
def Keyed (catalog : Catalog) : Prop :=
  ∀ fingerprint text, catalog.get? fingerprint = some text → Fingerprint.ofText text = fingerprint

/-- A catalog has what two catalogs have, and the text of the first one where both have one. -/
def Joins (whole first second : Catalog) : Prop :=
  ∀ fingerprint, whole.get? fingerprint =
    Option.merge (fun text _ => text) (first.get? fingerprint) (second.get? fingerprint)

theorem get?_insert_eq_merge (catalog : Catalog) (filter : Text) (fingerprint : Fingerprint) :
    (catalog.insert filter).get? fingerprint =
      if Fingerprint.ofText filter = fingerprint then
        Option.merge (fun text _ => text) (catalog.get? fingerprint) (some filter)
      else catalog.get? fingerprint := by
  rw [get?_insert]
  cases catalog.get? fingerprint <;> simp

theorem contains_insert_iff (catalog : Catalog) (filter : Text) (fingerprint : Fingerprint) :
    (catalog.insert filter).contains fingerprint = true ↔
      catalog.contains fingerprint = true ∨ Fingerprint.ofText filter = fingerprint := by
  rw [contains_eq_isSome, contains_eq_isSome, get?_insert_eq_merge]
  cases catalog.get? fingerprint with
  | some text => simp
  | none => by_cases heq : Fingerprint.ofText filter = fingerprint <;> simp [heq]

/-- Once a fingerprint is taken, further texts with it are not stored. -/
theorem insert_eq {catalog : Catalog} {filter : Text}
    (hcontains : catalog.contains (Fingerprint.ofText filter) = true) :
    catalog.insert filter = catalog := by
  apply Catalog.ext
  intro fingerprint
  rw [get?_insert, if_neg]
  rintro ⟨rfl, hnone⟩
  rw [contains_eq_isSome, hnone] at hcontains
  exact absurd hcontains Bool.false_ne_true

theorem keyed_empty : empty.Keyed := by
  intro fingerprint text htext
  simp at htext

theorem Keyed.insert {catalog : Catalog} (hcatalog : catalog.Keyed) (filter : Text) :
    (catalog.insert filter).Keyed := by
  intro fingerprint
  rw [get?_insert_eq_merge]
  split
  next hfilter =>
    refine forall_merge (hcatalog fingerprint) ?_ fun _ _ hone _ => hone
    rintro two ⟨⟩
    exact hfilter
  next => exact hcatalog fingerprint

theorem joins_empty (catalog : Catalog) : catalog.Joins catalog empty := by
  intro fingerprint
  rw [get?_empty, Option.merge_none_right]

theorem Joins.insert {whole first second : Catalog} (hwhole : whole.Joins first second)
    (filter : Text) : (whole.insert filter).Joins first (second.insert filter) := by
  intro fingerprint
  rw [get?_insert_eq_merge, get?_insert_eq_merge, hwhole]
  split
  next => exact option_merge_assoc fun _ _ _ _ _ => rfl
  next => rfl

theorem Joins.foldl_insert {whole first second : Catalog} (hwhole : whole.Joins first second)
    (hsecond : second.Keyed) {texts : List Text} (htexts : texts.Perm second.textList) :
    texts.foldl Catalog.insert first = whole := by
  have hdistinct : (texts.map Fingerprint.ofText).Nodup :=
    (htexts.map Fingerprint.ofText).nodup_iff.2 (nodup_keyOf_values hsecond)
  apply Catalog.ext
  intro fingerprint
  rw [lookup_foldl_put get?_insert_eq_merge hdistinct, find?_values hsecond htexts, hwhole]
  rfl

end Catalog

end RoutingPolicy
