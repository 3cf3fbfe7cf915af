import RoutingPolicy.Markup.Element

/-!
# Places in a document

What is inside an element is at a place, which has the index of a child for each level. Places are
ordered as lists of numbers, with the first index that differs deciding, and this is the order in
which the tags open in the document.
-/

namespace RoutingPolicy

namespace Markup

variable {Item : Type}

/-! ### The order of the document -/

/-- The list has what is at the places that are meant, once for each place, in the order of the
document. -/
def InDocumentOrder (At : List Nat → Item → Prop) (items : List Item) : Prop :=
  ∃ placed : List (List Nat × Item), placed.map Prod.snd = items ∧
    placed.Pairwise (·.1 < ·.1) ∧ ∀ place item, (place, item) ∈ placed ↔ At place item

/-- An item is at a place inside one of the elements that satisfy a condition, and the first index
of the place tells which. -/
def InsideOne (p : Element → Bool) (Inside : Element → List Nat → Item → Prop)
    (elements : List Element) : List Nat → Item → Prop
  | [], _ => False
  | index :: place, item =>
    ∃ element, elements[index]? = some element ∧ p element = true ∧ Inside element place item

namespace InDocumentOrder

variable {At Later Other : List Nat → Item → Prop} {items others : List Item}

theorem singleton (item : Item) :
    InDocumentOrder (fun place other => place = [] ∧ other = item) [item] :=
  ⟨[([], item)], rfl, List.pairwise_singleton _ _, by simp⟩

theorem congr (hitems : InDocumentOrder At items)
    (hsame : ∀ place item, Other place item ↔ At place item) : InDocumentOrder Other items := by
  obtain ⟨placed, hmap, hordered, hplaced⟩ := hitems
  exact ⟨placed, hmap, hordered, fun place item =>
    (hplaced place item).trans (hsame place item).symm⟩

/-- Places can be moved as long as none of them overtakes another one. -/
theorem move (hitems : InDocumentOrder At items) {f : List Nat → List Nat}
    (hf : ∀ place other, place < other → f place < f other) :
    InDocumentOrder (fun place item => ∃ inner, f inner = place ∧ At inner item) items := by
  obtain ⟨placed, hmap, hordered, hplaced⟩ := hitems
  refine ⟨placed.map fun entry => (f entry.1, entry.2), ?_, ?_, fun place item => ?_⟩
  · rw [List.map_map, ← hmap]
    rfl
  · exact hordered.map _ fun _ _ hlt => hf _ _ hlt
  · rw [List.mem_map]
    constructor
    · rintro ⟨⟨inner, _⟩, hmem, heq⟩
      obtain ⟨hplace, rfl⟩ := Prod.mk.inj heq
      exact ⟨inner, hplace, (hplaced inner _).1 hmem⟩
    · rintro ⟨inner, rfl, hinner⟩
      exact ⟨(inner, item), (hplaced inner item).2 hinner, rfl⟩

theorem append (hitems : InDocumentOrder At items) (hothers : InDocumentOrder Later others)
    (hlt : ∀ place item later other, At place item → Later later other → place < later) :
    InDocumentOrder (fun place item => At place item ∨ Later place item) (items ++ others) := by
  obtain ⟨placed, rfl, hordered, hplaced⟩ := hitems
  obtain ⟨placedLater, rfl, horderedLater, hplacedLater⟩ := hothers
  refine ⟨placed ++ placedLater, List.map_append, ?_, fun place item => ?_⟩
  · rw [List.pairwise_append]
    refine ⟨hordered, horderedLater, fun entry hmem later hlater => ?_⟩
    exact hlt _ _ _ _ ((hplaced _ _).1 hmem) ((hplacedLater _ _).1 hlater)
  · rw [List.mem_append, hplaced, hplacedLater]

end InDocumentOrder

theorem modifyHead_succ_lt {place other : List Nat} (hlt : place < other) :
    place.modifyHead (· + 1) < other.modifyHead (· + 1) := by
  cases place with
  | nil =>
    cases other with
    | nil => exact absurd hlt (List.not_lt_nil [])
    | cons index other => exact List.nil_lt_cons _ _
  | cons index place =>
    cases other with
    | nil => exact absurd hlt (List.not_lt_nil _)
    | cons next other =>
      rw [List.cons_lt_cons_iff] at hlt
      rw [List.modifyHead_cons, List.modifyHead_cons, List.cons_lt_cons_iff,
        Nat.add_lt_add_iff_right, Nat.add_right_cancel_iff]
      exact hlt

section InsideOne

variable {p : Element → Bool} {Inside : Element → List Nat → Item → Prop}
  {gather : Element → List Item}

/-- An element in front of the others has the index zero and moves the others by one. -/
theorem insideOne_cons {element : Element} {elements : List Element} {place : List Nat}
    {item : Item} : InsideOne p Inside (element :: elements) place item ↔
      (∃ inner, 0 :: inner = place ∧ p element = true ∧ Inside element inner item) ∨
        ∃ moved, moved.modifyHead (· + 1) = place ∧ InsideOne p Inside elements moved item := by
  constructor
  · intro hinside
    match place, hinside with
    | 0 :: inner, ⟨_, rfl, hp, hinner⟩ => exact .inl ⟨inner, rfl, hp, hinner⟩
    | (index + 1) :: inner, hinside => exact .inr ⟨index :: inner, rfl, hinside⟩
  · rintro (⟨inner, rfl, hp, hinner⟩ | ⟨moved, rfl, hmoved⟩)
    · exact ⟨element, rfl, hp, hinner⟩
    · match moved, hmoved with
      | index :: inner, hmoved => exact hmoved

/-- What is gathered from one element after the other is in the order of the document. -/
theorem inDocumentOrder_flatMap {elements : List Element}
    (hgather : ∀ element, p element = true → InDocumentOrder (Inside element) (gather element)) :
    InDocumentOrder (InsideOne p Inside elements) ((elements.filter p).flatMap gather) := by
  induction elements with
  | nil =>
    refine ⟨[], rfl, List.Pairwise.nil, fun place item => ?_⟩
    cases place <;> simp [InsideOne]
  | cons element elements ih =>
    have hmoved := ih.move fun _ _ => modifyHead_succ_lt
    cases hp : p element with
    | false =>
      rw [List.filter_cons_of_neg (by simp [hp])]
      refine hmoved.congr fun place item => ?_
      rw [insideOne_cons, hp]
      simp
    | true =>
      have hfirst : InDocumentOrder (fun place item =>
          ∃ inner, 0 :: inner = place ∧ Inside element inner item) (gather element) :=
        (hgather element hp).move fun _ _ hlt => List.cons_lt_cons_iff.2 (.inr ⟨rfl, hlt⟩)
      rw [List.filter_cons_of_pos hp, List.flatMap_cons]
      refine (hfirst.append hmoved ?_).congr fun place item => ?_
      · rintro place item later other ⟨inner, rfl, -⟩ ⟨moved, rfl, hmoved⟩
        cases moved with
        | nil => exact hmoved.elim
        | cons index moved => exact List.cons_lt_cons_iff.2 (.inl (Nat.succ_pos index))
      · rw [insideOne_cons, hp]
        simp

end InsideOne

/-! ### Replacing an element -/

namespace Element

/-- The element with other elements in the place of the child at an index. -/
def replaceChild (index : Nat) (elements : List Element) : Element → Element
  | mk name attributes children =>
    mk name attributes (children.take index ++ elements ++ children.drop (index + 1))

/-- The element with other elements in the place of the one that is at a place inside it. -/
def replaceAt (elements : List Element) : List Nat → Element → Element
  | [], element => element
  | [index], element => element.replaceChild index elements
  | index :: next :: place, element =>
    element.replaceChild index
      (element.children[index]?.map (replaceAt elements (next :: place))).toList

variable {element child : Element} {index : Nat} {place : List Nat}

@[simp] theorem name_replaceChild (index : Nat) (elements : List Element) (element : Element) :
    (element.replaceChild index elements).name = element.name := by
  cases element
  rfl

@[simp] theorem attribute?_replaceChild (index : Nat) (elements : List Element) (element : Element) :
    (element.replaceChild index elements).attribute? = element.attribute? := by
  cases element
  rfl

@[simp] theorem name_replaceAt (elements : List Element) (place : List Nat) (element : Element) :
    (element.replaceAt elements place).name = element.name := by
  match place with
  | [] => rfl
  | [index] => exact name_replaceChild index elements element
  | index :: next :: place => exact name_replaceChild index _ element

theorem exists_children_replaceChild (hchild : element.children[index]? = some child) :
    ∃ before after, element.children = before ++ [child] ++ after ∧
      ∀ elements, (element.replaceChild index elements).children = before ++ elements ++ after := by
  obtain ⟨hindex, rfl⟩ := List.getElem?_eq_some_iff.1 hchild
  refine ⟨element.children.take index, element.children.drop (index + 1), ?_, fun elements => ?_⟩
  · rw [List.append_assoc, List.singleton_append, ← List.drop_eq_getElem_cons hindex,
      List.take_append_drop]
  · cases element
    rfl

theorem replaceChild_self (hchild : element.children[index]? = some child) :
    element.replaceChild index [child] = element := by
  obtain ⟨before, after, hchildren, hreplaced⟩ := exists_children_replaceChild hchild
  cases element with
  | mk name attributes children =>
    have hsame := (hreplaced [child]).trans hchildren.symm
    exact congrArg (mk name attributes) hsame

theorem replaceAt_cons (hchild : element.children[index]? = some child) (hplace : place ≠ [])
    (elements : List Element) : element.replaceAt elements (index :: place) =
      element.replaceChild index [child.replaceAt elements place] := by
  cases place with
  | nil => exact absurd rfl hplace
  | cons next place => rw [replaceAt, hchild, Option.map_some, Option.toList_some]

end Element

/-! ### What a replacement changes -/

/-- Of a list that depends on replacing elements, only the part in the middle does. -/
def Framed (whole part : List Element → List Item) : Prop :=
  ∃ before after, ∀ elements, whole elements = before ++ part elements ++ after

namespace Framed

variable {whole part : List Element → List Item}

theorem refl (part : List Element → List Item) : Framed part part :=
  ⟨[], [], fun elements => (List.append_nil (part elements)).symm⟩

theorem append (hwhole : Framed whole part) (first last : List Item) :
    Framed (fun elements => first ++ whole elements ++ last) part := by
  obtain ⟨before, after, hframe⟩ := hwhole
  refine ⟨first ++ before, after ++ last, fun elements => ?_⟩
  simp only [hframe, List.append_assoc]

theorem filterMap {Image : Type} (hwhole : Framed whole part) (f : Item → Option Image) :
    Framed (fun elements => (whole elements).filterMap f)
      fun elements => (part elements).filterMap f := by
  obtain ⟨before, after, hframe⟩ := hwhole
  refine ⟨before.filterMap f, after.filterMap f, fun elements => ?_⟩
  simp only [hframe, List.filterMap_append]

/-- What is gathered from the children of an element changes with one child as far as it is gathered
from this child. -/
theorem replaceChild {element child : Element} {index : Nat} {changed : List Element → Element}
    {p : Element → Bool} {gather : Element → List Item}
    (hchanged : Framed
      (fun elements => if p (changed elements) then gather (changed elements) else []) part)
    (hchild : element.children[index]? = some child) :
    Framed (fun elements =>
      ((element.replaceChild index [changed elements]).children.filter p).flatMap gather) part := by
  obtain ⟨before, after, -, hreplaced⟩ := Element.exists_children_replaceChild hchild
  have hhere (element : Element) :
      ([element].filter p).flatMap gather = if p element then gather element else [] := by
    cases hp : p element <;> simp [hp]
  simp only [hreplaced, List.filter_append, List.flatMap_append, hhere]
  exact hchanged.append _ _

/-- Of several lists only the one for a given key depends on the replacing elements. -/
theorem flatMap {Key : Type} [DecidableEq Key] {given : Key}
    {gather : Key → List Element → List Item}
    (hgather : ∀ key, Framed (gather key) fun elements => if key = given then part elements else [])
    {keys : List Key} (hnodup : keys.Nodup) :
    Framed (fun elements => keys.flatMap (gather · elements))
      fun elements => if given ∈ keys then part elements else [] := by
  induction keys with
  | nil => exact refl _
  | cons key keys ih =>
    obtain ⟨hnot, hnodup⟩ := List.nodup_cons.1 hnodup
    obtain ⟨before, after, hhere⟩ := hgather key
    obtain ⟨beforeLater, afterLater, hlater⟩ := ih hnodup
    by_cases hkey : key = given
    · subst hkey
      refine ⟨before, after ++ beforeLater ++ afterLater, fun elements => ?_⟩
      simp only [List.flatMap_cons, hhere, hlater, if_pos, if_neg hnot, List.mem_cons_self,
        List.append_nil, List.append_assoc]
    · have hmem : given ∈ key :: keys ↔ given ∈ keys := by simp [Ne.symm hkey]
      refine ⟨before ++ after ++ beforeLater, afterLater, fun elements => ?_⟩
      simp only [List.flatMap_cons, hhere, hlater, if_neg hkey, hmem, List.append_nil,
        List.append_assoc]

end Framed

end Markup

end RoutingPolicy
