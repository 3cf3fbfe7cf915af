import RoutingPolicy.Export.Route
import RoutingPolicy.Proofs.Markup.Place

/-!
# Which routes an export has

A route comes from one primary key and from nothing else in the document. Where primary keys are and
what each of them gives is told by relations, and the routes are those of the primary keys in the
order of the document, with one IP version in front of the other. So whatever is done to one primary
key, the routes from all others stay as they are.
-/

namespace RoutingPolicy

open Markup (Element Framed InDocumentOrder InsideOne inDocumentOrder_flatMap)

namespace Route

/-! ### What a primary key gives -/

/-- The element gives a value to a name. -/
structure Assigns (element : Element) (name value : Text) : Prop where
  name_eq : element.name = "attribute".toList
  attribute_name : element.attribute? "name".toList = some name
  attribute_value : element.attribute? "value".toList = some value

/-- The last child of a primary key that gives a value to the name gives it this one. -/
def LastValue (key : Element) (name value : Text) : Prop :=
  ∃ before element after, key.children = before ++ element :: after ∧ Assigns element name value ∧
    ∀ later ∈ after, ∀ other, ¬Assigns later name other

/-- A primary key has a network of the version and an origin, and the route is made of them. -/
structure Gives (version : IpVersion) (key : Element) (route : Route) : Prop where
  network : ∃ text, LastValue key (objectType version) text ∧
    Network.read? (Text.trim text) = some route.network
  isIpv6 : route.isIpv6 = (version == .ipv6)
  origin : ∃ text, LastValue key "origin".toList text ∧ route.origin = Text.trim text

def ofKey? (version : IpVersion) (key : Element) : Option Route := (ofKey version key).toOption

theorem attributeOf?_eq_some_iff {element : Element} {name value : Text} :
    Export.attributeOf? element = some ⟨name, value⟩ ↔
      element.attribute? "name".toList = some name ∧
        element.attribute? "value".toList = some value := by
  unfold Export.attributeOf?
  cases element.attribute? "name".toList <;> cases element.attribute? "value".toList <;> simp

/-- What an element gives to a name. -/
def assigned? (name : Text) (element : Element) : Option Text :=
  ((if element.name == "attribute".toList then Export.attributeOf? element else none).filter
    (·.name == name)).map (·.value)

theorem assigned?_eq_some_iff {element : Element} {name value : Text} :
    assigned? name element = some value ↔ Assigns element name value := by
  constructor
  · intro hvalue
    obtain ⟨⟨_, _⟩, hfound, rfl⟩ := Option.map_eq_some_iff.1 hvalue
    rw [Option.filter_eq_some_iff, Option.ite_none_right_eq_some, beq_iff_eq, beq_iff_eq] at hfound
    obtain ⟨⟨hname, hattribute⟩, rfl⟩ := hfound
    obtain ⟨hattribute_name, hattribute_value⟩ := attributeOf?_eq_some_iff.1 hattribute
    exact ⟨hname, hattribute_name, hattribute_value⟩
  · rintro ⟨hname, hattribute_name, hattribute_value⟩
    refine Option.map_eq_some_iff.2 ⟨⟨name, value⟩, ?_, rfl⟩
    rw [Option.filter_eq_some_iff, Option.ite_none_right_eq_some, beq_iff_eq, beq_iff_eq]
    exact ⟨⟨hname, attributeOf?_eq_some_iff.2 ⟨hattribute_name, hattribute_value⟩⟩, rfl⟩

theorem assigned?_eq_none_iff {element : Element} {name : Text} :
    assigned? name element = none ↔ ∀ value, ¬Assigns element name value := by
  rw [Option.eq_none_iff_forall_ne_some]
  exact forall_congr' fun value => not_congr assigned?_eq_some_iff

theorem lastValue?_eq (key : Element) (name : Text) :
    lastValue? name (Export.attributesIn key) = key.children.reverse.findSome? (assigned? name) := by
  rw [lastValue?, Export.attributesIn, Element.childrenNamed, List.filterMap_filter,
    List.filter_filterMap, ← List.getLast?_map, List.map_filterMap, List.getLast?_filterMap]
  rfl

theorem lastValue?_eq_some_iff {key : Element} {name value : Text} :
    lastValue? name (Export.attributesIn key) = some value ↔ LastValue key name value := by
  rw [lastValue?_eq, List.findSome?_eq_some_iff]
  constructor
  · rintro ⟨after, element, before, hchildren, hvalue, hafter⟩
    refine ⟨before.reverse, element, after.reverse, ?_, assigned?_eq_some_iff.1 hvalue, ?_⟩
    · rw [← List.reverse_reverse key.children, hchildren, List.reverse_append, List.reverse_cons,
        List.append_assoc, List.singleton_append]
    · exact fun later hmem => assigned?_eq_none_iff.1 (hafter later (List.mem_reverse.1 hmem))
  · rintro ⟨before, element, after, hchildren, hvalue, hafter⟩
    refine ⟨after.reverse, element, before.reverse, ?_, assigned?_eq_some_iff.2 hvalue, ?_⟩
    · rw [hchildren, List.reverse_append, List.reverse_cons, List.append_assoc,
        List.singleton_append]
    · exact fun later hmem => assigned?_eq_none_iff.2 (hafter later (List.mem_reverse.1 hmem))

theorem networkOf?_eq_some_iff {version : IpVersion} {text : Text} {network : Network} :
    networkOf? version text = some network ↔
      Network.read? (Text.trim text) = some network ∧ network.isIpv6 = (version == .ipv6) := by
  rw [networkOf?, Option.filter_eq_some_iff, beq_iff_eq]

theorem ofKey?_eq_some_iff {version : IpVersion} {key : Element} {route : Route} :
    ofKey? version key = some route ↔ Gives version key route := by
  constructor
  · intro hroute
    unfold ofKey? ofKey at hroute
    simp only at hroute
    split at hroute
    next text origin htext horigin =>
      split at hroute
      next network hnetwork =>
        obtain rfl := Option.some.inj hroute
        obtain ⟨hread, hversion⟩ := networkOf?_eq_some_iff.1 hnetwork
        exact ⟨⟨text, lastValue?_eq_some_iff.1 htext, hread⟩, hversion,
          ⟨origin, lastValue?_eq_some_iff.1 horigin, rfl⟩⟩
      next => exact absurd hroute.symm (Option.some_ne_none route)
    next => exact absurd hroute.symm (Option.some_ne_none route)
  · rintro ⟨⟨text, htext, hread⟩, hversion, ⟨origin, horigin, hroute⟩⟩
    have hnetwork := networkOf?_eq_some_iff.2 ⟨hread, hversion⟩
    unfold ofKey? ofKey
    simp only [lastValue?_eq_some_iff.2 htext, lastValue?_eq_some_iff.2 horigin, hnetwork, ← hroute]
    rfl

/-! ### Where the primary keys are -/

/-- The primary key is at the place inside the container, as a child of an object of the type. -/
inductive HoldsKey (type : Text) (container : Element) : List Nat → Element → Prop
  | intro {i j : Nat} {object key : Element} (hobject : container.children[i]? = some object)
      (hobject_name : object.name = "object".toList)
      (htype : object.attribute? "type".toList = some type)
      (hkey : object.children[j]? = some key) (hkey_name : key.name = "primary-key".toList) :
      HoldsKey type container [i, j] key

/-- The primary key of an object of the type is at the place in the document. The containers of
objects are the root, if it is named so, or else the children of the root that are. -/
inductive KeyAt (type : Text) (root : Element) : List Nat → Element → Prop
  | inRoot {place : List Nat} {key : Element} (hroot : root.name = "objects".toList)
      (hkey : HoldsKey type root place key) : KeyAt type root place key
  | inChild {index : Nat} {place : List Nat} {container key : Element}
      (hroot : root.name ≠ "objects".toList)
      (hcontainer : root.children[index]? = some container)
      (hcontainer_name : container.name = "objects".toList)
      (hkey : HoldsKey type container place key) : KeyAt type root (index :: place) key

def isContainer (element : Element) : Bool := element.name == "objects".toList

def isObject (type : Text) (element : Element) : Bool :=
  element.attribute? "type".toList == some type && element.name == "object".toList

def isKey (element : Element) : Bool := element.name == "primary-key".toList

/-- The primary keys of the objects of a type that are in one container. -/
def keysIn (type : Text) (container : Element) : List Element :=
  (container.children.filter (isObject type)).flatMap fun object => object.children.filter isKey

/-- The primary keys of all objects of a type. -/
def keysOf (type : Text) (root : Element) : List Element :=
  if root.name = "objects".toList then keysIn type root
  else (root.children.filter isContainer).flatMap (keysIn type)

theorem keys_eq (version : IpVersion) (root : Element) :
    keys version root = keysOf (objectType version) root := by
  have hcontainer (container : Element) :
      (Export.objectsIn (objectType version) container).flatMap
        (·.childrenNamed "primary-key".toList) = keysIn (objectType version) container := by
    rw [Export.objectsIn, Element.childrenNamed, List.filter_filter]
    rfl
  rw [keys, Export.objects, List.flatMap_assoc, Export.containers, keysOf]
  simp only [hcontainer]
  split
  next => rw [List.flatMap_singleton]
  next => rfl

theorem inDocumentOrder_keysIn (type : Text) (container : Element) :
    InDocumentOrder (HoldsKey type container) (keysIn type container) := by
  have hkeys (object : Element) : InDocumentOrder
      (InsideOne isKey (fun key place other => place = [] ∧ other = key) object.children)
      (object.children.filter isKey) := by
    have hitems := @inDocumentOrder_flatMap _ isKey _ (fun key => [key]) object.children
      fun key _ => InDocumentOrder.singleton key
    rwa [List.flatMap_singleton'] at hitems
  refine (inDocumentOrder_flatMap fun object _ => hkeys object).congr fun place key => ?_
  constructor
  · rintro ⟨hobject, hobject_name, htype, hkey, hkey_name⟩
    refine ⟨_, hobject, ?_, _, hkey, beq_iff_eq.2 hkey_name, rfl, rfl⟩
    rw [isObject, htype, hobject_name, beq_self_eq_true, beq_self_eq_true, Bool.and_self]
  · intro hinside
    match place, hinside with
    | [i, j], ⟨object, hobject, hisObject, key, hkey, hisKey, _, hsame⟩ =>
      rw [isObject, Bool.and_eq_true, beq_iff_eq, beq_iff_eq] at hisObject
      subst hsame
      exact ⟨hobject, hisObject.2, hisObject.1, hkey, beq_iff_eq.1 hisKey⟩

theorem inDocumentOrder_keysOf (type : Text) (root : Element) :
    InDocumentOrder (KeyAt type root) (keysOf type root) := by
  unfold keysOf
  split
  next hroot =>
    refine (inDocumentOrder_keysIn type root).congr fun place key => ?_
    constructor
    · rintro (⟨_, hkey⟩ | ⟨hnot, _, _, _⟩)
      · exact hkey
      · exact absurd hroot hnot
    · exact .inRoot hroot
  next hroot =>
    have hitems := @inDocumentOrder_flatMap _ isContainer _ (keysIn type) root.children
      fun container _ => inDocumentOrder_keysIn type container
    refine hitems.congr fun place key => ?_
    constructor
    · rintro (⟨hnot, _⟩ | ⟨_, hcontainer, hcontainer_name, hkey⟩)
      · exact absurd hnot hroot
      · exact ⟨_, hcontainer, beq_iff_eq.2 hcontainer_name, hkey⟩
    · intro hinside
      match place, hinside with
      | index :: place, ⟨container, hcontainer, hname, hkey⟩ =>
        exact .inChild hroot hcontainer (beq_iff_eq.1 hname) hkey

/-! ### Replacing a primary key -/

variable {type : Text} {container root key : Element} {place : List Nat}

theorem HoldsKey.place_ne_nil (hkey : HoldsKey type container place key) : place ≠ [] := by
  cases hkey
  exact List.cons_ne_nil _ _

theorem HoldsKey.replaceAt_self (hkey : HoldsKey type container place key) :
    container.replaceAt [key] place = container := by
  cases hkey with
  | intro hobject _ _ hkey _ =>
    rw [Element.replaceAt_cons hobject (List.cons_ne_nil _ _), Element.replaceAt,
      Element.replaceChild_self hkey, Element.replaceChild_self hobject]

theorem KeyAt.replaceAt_self (hkey : KeyAt type root place key) :
    root.replaceAt [key] place = root := by
  cases hkey with
  | inRoot _ hkey => exact hkey.replaceAt_self
  | inChild _ hcontainer _ hkey =>
    rw [Element.replaceAt_cons hcontainer hkey.place_ne_nil, hkey.replaceAt_self,
      Element.replaceChild_self hcontainer]

theorem isObject_replaceChild (type : Text) (index : Nat) (elements : List Element)
    (element : Element) :
    isObject type (element.replaceChild index elements) = isObject type element := by
  rw [isObject, Element.attribute?_replaceChild, Element.name_replaceChild, isObject]

theorem isContainer_replaceAt (elements : List Element) (place : List Nat) (element : Element) :
    isContainer (element.replaceAt elements place) = isContainer element := by
  rw [isContainer, Element.name_replaceAt, isContainer]

/-- Of the primary keys of all types, only those of the type of the replaced one change. -/
theorem HoldsKey.framed (hkey : HoldsKey type container place key) (other : Text) :
    Framed (fun elements => keysIn other (container.replaceAt elements place))
      fun elements => if other = type then elements.filter isKey else [] := by
  cases hkey with
  | @intro i j object key hobject hobject_name htype hkey hkey_name =>
    have hreplace (elements : List Element) : container.replaceAt elements [i, j] =
        container.replaceChild i [object.replaceChild j elements] :=
      Element.replaceAt_cons hobject (List.cons_ne_nil _ _) elements
    have hisObject : isObject other object = true ↔ other = type := by
      rw [isObject, htype, hobject_name, beq_self_eq_true, Bool.and_true, beq_iff_eq,
        Option.some.injEq, eq_comm]
    simp only [hreplace, keysIn]
    refine Framed.replaceChild ?_ hobject
    simp only [isObject_replaceChild, hisObject]
    split
    next =>
      obtain ⟨before, after, -, hchildren⟩ := Element.exists_children_replaceChild hkey
      simp only [hchildren, List.filter_append]
      exact (Framed.refl _).append _ _
    next => exact Framed.refl _

theorem KeyAt.framed (hkey : KeyAt type root place key) (other : Text) :
    Framed (fun elements => keysOf other (root.replaceAt elements place))
      fun elements => if other = type then elements.filter isKey else [] := by
  cases hkey with
  | inRoot hroot hkey =>
    simp only [keysOf, Element.name_replaceAt, if_pos hroot]
    exact hkey.framed other
  | @inChild index place container _ hroot hcontainer hcontainer_name hkey =>
    have hreplace (elements : List Element) : root.replaceAt elements (index :: place) =
        root.replaceChild index [container.replaceAt elements place] :=
      Element.replaceAt_cons hcontainer hkey.place_ne_nil elements
    have hisContainer : isContainer container = true := beq_iff_eq.2 hcontainer_name
    simp only [hreplace, keysOf, Element.name_replaceChild, if_neg hroot]
    refine Framed.replaceChild ?_ hcontainer
    simp only [isContainer_replaceAt, hisContainer, if_true]
    exact hkey.framed other

/-! ### The routes of a document -/

theorem all_eq (root : Element) (versions : IpVersions) : all root versions =
    versions.toList.flatMap fun version =>
      (keysOf (objectType version) root).filterMap (ofKey? version) := by
  rw [all, readAll, List.filterMap_flatMap]
  simp only [List.filterMap_map, keys_eq]
  rfl

theorem all_only (root : Element) (version : IpVersion) : all root (.only version) =
    (keysOf (objectType version) root).filterMap (ofKey? version) := by
  have hversions : (IpVersions.only version).toList = [version] := by cases version <;> rfl
  rw [all_eq, hversions, List.flatMap_singleton]

theorem objectType_eq_iff {version other : IpVersion} :
    objectType version = objectType other ↔ version = other := by
  cases version <;> cases other <;> decide

/-- The routes that elements give as primary keys, if their version is asked for. -/
def given (version : IpVersion) (versions : IpVersions) (elements : List Element) : List Route :=
  if versions.contains version then (elements.filter isKey).filterMap (ofKey? version) else []

theorem KeyAt.framed_all {version : IpVersion} (hkey : KeyAt (objectType version) root place key)
    (versions : IpVersions) :
    Framed (fun elements => all (root.replaceAt elements place) versions)
      (given version versions) := by
  have hframe (other : IpVersion) : Framed
      (fun elements =>
        (keysOf (objectType other) (root.replaceAt elements place)).filterMap (ofKey? other))
      fun elements => if other = version then (elements.filter isKey).filterMap (ofKey? version)
        else [] := by
    have hkeys := (hkey.framed (objectType other)).filterMap (ofKey? other)
    simp only [objectType_eq_iff] at hkeys
    by_cases hother : other = version
    · subst hother
      simpa only [if_pos] using hkeys
    · simpa only [if_neg hother, List.filterMap_nil] using hkeys
  have hnodup : versions.toList.Nodup := by
    have hall : [IpVersion.ipv4, .ipv6].Nodup := by decide
    exact hall.filter _
  have hmem : version ∈ versions.toList ↔ versions.contains version = true := by
    rw [IpVersions.toList, List.mem_filter]
    exact and_iff_right (by cases version <;> decide)
  have hall := Framed.flatMap hframe hnodup
  simp only [hmem] at hall
  simp only [all_eq]
  exact hall

/-- The routes of both versions are those of the one and then those of the other. The routes of one
version are given by the primary keys of the objects of its type, in the order of the document, and
they are of this version. What is put in the place of a primary key changes only what stands in the
place of its route, where taking nothing removes the primary key. -/
theorem all_exact (root : Element) :
    all root .both = all root (.only .ipv4) ++ all root (.only .ipv6) ∧
    ∀ version : IpVersion,
      (∃ keys, InDocumentOrder (KeyAt (objectType version) root) keys ∧
        all root (.only version) = keys.filterMap (ofKey? version)) ∧
      (∀ key route, ofKey? version key = some route ↔ Gives version key route) ∧
      (∀ route ∈ all root (.only version), route.isIpv6 = (version == .ipv6)) ∧
      ∀ place key, KeyAt (objectType version) root place key → ∀ versions, ∃ before after,
        all root versions = before ++ given version versions [key] ++ after ∧
        ∀ elements, all (root.replaceAt elements place) versions =
          before ++ given version versions elements ++ after := by
  refine ⟨?_, fun version => ⟨⟨_, inDocumentOrder_keysOf _ root, all_only root version⟩,
    fun _ _ => ofKey?_eq_some_iff, fun route hroute => ?_, fun place key hkey versions => ?_⟩⟩
  · have hboth : IpVersions.both.toList = [.ipv4, .ipv6] := rfl
    rw [all_eq, hboth, List.flatMap_cons, List.flatMap_singleton, all_only, all_only]
  · rw [all_only, List.mem_filterMap] at hroute
    obtain ⟨key, -, hkey⟩ := hroute
    exact (ofKey?_eq_some_iff.1 hkey).isIpv6
  · obtain ⟨before, after, hframe⟩ := hkey.framed_all versions
    have hself := hframe [key]
    simp only [hkey.replaceAt_self] at hself
    exact ⟨before, after, hself, hframe⟩

/-- An object with two primary keys, of which the first one is removed. -/
theorem all_exact_removed_key :
    let named (name value : Text) : Element :=
      .mk "attribute".toList [⟨none, "name".toList, name⟩, ⟨none, "value".toList, value⟩] []
    let key (network : Text) : Element := .mk "primary-key".toList []
      [named "route".toList network, named "origin".toList "AS1".toList]
    let object : Element := .mk "object".toList [⟨none, "type".toList, "route".toList⟩]
      [key "10.0.0.0/8".toList, key "11.0.0.0/8".toList]
    let root : Element := .mk "whois-resources".toList []
      [.mk "objects".toList [] [object]]
    KeyAt (objectType .ipv4) root [0, 0, 0] (key "10.0.0.0/8".toList) ∧
      ∃ before after,
        all root .both = before ++ given .ipv4 .both [key "10.0.0.0/8".toList] ++ after ∧
        all (root.replaceAt [] [0, 0, 0]) .both = before ++ given .ipv4 .both [] ++ after ∧
        given .ipv4 .both [] = [] := by
  intro named key object root
  have hkey : KeyAt (objectType .ipv4) root [0, 0, 0] (key "10.0.0.0/8".toList) :=
    .inChild (by decide) rfl rfl ⟨rfl, rfl, rfl, rfl, rfl⟩
  obtain ⟨-, -, -, hreplace⟩ := (all_exact root).2 .ipv4
  obtain ⟨before, after, hroot, hframe⟩ := hreplace _ _ hkey .both
  exact ⟨hkey, before, after, hroot, hframe [], rfl⟩

end Route

end RoutingPolicy
