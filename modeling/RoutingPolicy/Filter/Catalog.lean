import Std.Data.ExtTreeMap
import RoutingPolicy.Filter.Fingerprint

/-!
# The catalog of filters

The filter texts of a policy, each under its fingerprint. The first text under a fingerprint stays.
-/

namespace RoutingPolicy

/-- Filter texts by fingerprint. -/
structure Catalog where
  entries : Std.ExtTreeMap Fingerprint Text

namespace Catalog

def empty : Catalog := ⟨∅⟩

/-- Stores a filter text, unless its fingerprint is taken. -/
def insert (catalog : Catalog) (filter : Text) : Catalog :=
  ⟨catalog.entries.insertIfNew (Fingerprint.ofText filter) filter⟩

def get? (catalog : Catalog) (fingerprint : Fingerprint) : Option Text :=
  catalog.entries[fingerprint]?

def contains (catalog : Catalog) (fingerprint : Fingerprint) : Bool :=
  catalog.entries.contains fingerprint

def size (catalog : Catalog) : Nat := catalog.entries.size

def isEmpty (catalog : Catalog) : Bool := catalog.entries.isEmpty

/-- The fingerprints and texts, ordered by fingerprint. -/
def toList (catalog : Catalog) : List (Fingerprint × Text) := catalog.entries.toList

@[ext] theorem ext {a b : Catalog} (h : ∀ fingerprint, a.get? fingerprint = b.get? fingerprint) :
    a = b := by
  cases a
  cases b
  exact congrArg _ (Std.ExtTreeMap.ext_getElem? h)

@[simp] theorem get?_empty (fingerprint : Fingerprint) : empty.get? fingerprint = none := by
  simp [empty, get?]

theorem contains_eq_isSome (catalog : Catalog) (fingerprint : Fingerprint) :
    catalog.contains fingerprint = (catalog.get? fingerprint).isSome :=
  Std.ExtTreeMap.contains_eq_isSome_getElem?

/-- The text stored first is kept. -/
theorem get?_insert (catalog : Catalog) (filter : Text) (fingerprint : Fingerprint) :
    (catalog.insert filter).get? fingerprint =
      if Fingerprint.ofText filter = fingerprint ∧ catalog.get? fingerprint = none then some filter
      else catalog.get? fingerprint := by
  simp only [insert, get?, Std.ExtTreeMap.getElem?_insertIfNew]
  by_cases h : Fingerprint.ofText filter = fingerprint
  · subst h
    simp [Std.ReflCmp.compare_self]
  · simp [h]

end Catalog

end RoutingPolicy
