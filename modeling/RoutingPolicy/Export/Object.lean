import RoutingPolicy.Markup.Element

/-!
# Objects of a registry export

A registry answers a search with a document in which `objects` elements hold `object` elements of
various types. An object has `attribute` elements, each with a name and a value.
-/

namespace RoutingPolicy

open Markup (Element)

/-- A named value of a registry object. -/
structure ObjectAttribute where
  name : Text
  value : Text
deriving DecidableEq

namespace Export

/-- The elements that hold objects: the root itself if it is named so, or else those inside it. -/
def containers (root : Element) : List Element :=
  if root.name = "objects".toList then [root] else root.childrenNamed "objects".toList

def objectsIn (type : Text) (container : Element) : List Element :=
  (container.childrenNamed "object".toList).filter (·.attribute? "type".toList == some type)

/-- All objects of a type, in document order. -/
def objects (type : Text) (root : Element) : List Element :=
  (containers root).flatMap (objectsIn type)

/-- The named value that an element stands for; both parts have to be there. -/
def attributeOf? (element : Element) : Option ObjectAttribute := do
  return ⟨← element.attribute? "name".toList, ← element.attribute? "value".toList⟩

def attributesIn (element : Element) : List ObjectAttribute :=
  (element.childrenNamed "attribute".toList).filterMap attributeOf?

def attributesOfObject (object : Element) : List ObjectAttribute :=
  (object.childrenNamed "attributes".toList).flatMap attributesIn

/-- The type of the objects that hold a policy. -/
def policyType : Text := "aut-num".toList

/-- The named values of all policy objects, in document order. -/
def policyAttributes (root : Element) : List ObjectAttribute :=
  (objects policyType root).flatMap attributesOfObject

end Export

end RoutingPolicy
