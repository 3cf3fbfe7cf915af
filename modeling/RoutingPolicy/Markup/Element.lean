import RoutingPolicy.Markup.Piece

/-!
# Elements of markup

A well-formed document is a tree of elements. An element keeps its name without the namespace part,
its attributes and the elements inside it; texts and remarks are left out. Reading the pieces of a
document checks that the tags nest, that every namespace part is declared and that no element has an
attribute twice.
-/

namespace RoutingPolicy

namespace Markup

/-- An attribute with the namespace that its name belongs to, if any. -/
structure Attribute where
  namespaceUri : Option Text
  name : Text
  value : Text
deriving DecidableEq

/-- An element with the elements inside it. -/
inductive Element where
  | mk (name : Text) (attributes : List Attribute) (children : List Element)

namespace Element

/-- The name without its namespace part. -/
def name : Element → Text
  | mk name _ _ => name

def attributes : Element → List Attribute
  | mk _ attributes _ => attributes

def children : Element → List Element
  | mk _ _ children => children

def childrenNamed (element : Element) (name : Text) : List Element :=
  element.children.filter (·.name == name)

/-- The value of the attribute that has a given name and no namespace. -/
def attribute? (element : Element) (name : Text) : Option Text :=
  (element.attributes.find? fun a => a.namespaceUri.isNone && a.name == name).map (·.value)

end Element

/-- What the names of the two reserved namespaces begin with. -/
def reservedStem : Text := "http:".toList ++ ['/', '/'] ++ "www.w3.org/".toList

def xmlUri : Text := reservedStem ++ "XML/1998/namespace".toList

def declarationUri : Text := reservedStem ++ "2000/xmlns/".toList

/-- The word that declares namespaces, and that no name may use otherwise. -/
def declarationWord : Text := "xmlns".toList

/-- The name part that attributes may have without a declaration. -/
def xmlWord : Text := "xml".toList

/-- Declared name parts and their namespaces; no part stands for the default namespace. -/
abbrev Scope := List (Option Text × Text)

/-- What an attribute of a tag adds to the namespaces that the tag has declared so far, if it is a
declaration at all. There is no result for an impossible declaration, such as one of a name part
that is declared already. -/
def declaration? (declared : Scope) (item : TagAttribute) : Option (Option Scope) :=
  let uri := item.value
  let base := item.name.base
  if item.name.space = declarationWord then
    if uri = declarationUri || (base == xmlWord) != (uri == xmlUri) ||
        (declared.lookup (some base)).isSome then none
    else some (some (if uri = xmlUri then [] else [(some base, uri)]))
  else if base = declarationWord then
    if uri = xmlUri || uri = declarationUri then none else some (some [(none, uri)])
  else some none

def declarations? (declared : Scope) (others : List TagAttribute) :
    List TagAttribute → Option (Scope × List TagAttribute)
  | [] => some (declared, others)
  | item :: items =>
    match declaration? declared item with
    | none => none
    | some none => declarations? declared (others ++ [item]) items
    | some (some new) => declarations? (declared ++ new) others items

/-- The namespace of the name of an attribute: none for a name without a part for it. The part `xml`
needs no declaration. -/
def namespaceOf? (scope : Scope) (space : Text) : Option (Option Text) :=
  if space = [] then some none
  else if space = xmlWord then some (some xmlUri)
  else (scope.lookup (some space)).map some

/-- Whether the name of an element may have the given namespace part: if it has one at all, a
declaration has to bring it into scope. As no declaration does that for `xml`, only attributes have
names in that namespace. -/
def admits (scope : Scope) (space : Text) : Bool :=
  space == [] || (scope.lookup (some space)).isSome

/-- Appends an attribute of a tag to those before it, unless its name is taken. -/
def addAttribute? (scope : Scope) (before : List Attribute) (item : TagAttribute) :
    Option (List Attribute) := do
  let uri ← namespaceOf? scope item.name.space
  let base := item.name.base
  if before.any fun a => a.namespaceUri == uri && a.name == base then none
  else some (before ++ [⟨uri, base, item.value⟩])

/-- An element whose end tag has not come yet. -/
structure Open where
  name : Name
  attributes : List Attribute
  scope : Scope
  /-- The elements inside so far, the last one first. -/
  inner : List Element

def Open.ofTag? (scope : Scope) (name : Name) (attributes : List TagAttribute) : Option Open := do
  if name.space = declarationWord then none
  let (new, others) ← declarations? [] [] attributes
  let scope := new ++ scope
  if !admits scope name.space then none
  let attributes ← others.foldlM (addAttribute? scope) []
  return ⟨name, attributes, scope, []⟩

def Open.close (element : Open) : Element :=
  .mk element.name.base element.attributes element.inner.reverse

/-- How far a document has been read. -/
structure Progress where
  /-- The elements that are still open, the innermost one first. -/
  pending : List Open
  /-- The outermost element, once it is closed. -/
  root : Option Element

/-- Puts a finished element where it belongs: inside the innermost open one, or as the root. -/
def Progress.finish? (progress : Progress) (element : Element) : Option Progress :=
  match progress.pending, progress.root with
  | parent :: outer, root =>
    some ⟨{ parent with inner := element :: parent.inner } :: outer, root⟩
  | [], none => some ⟨[], some element⟩
  | [], some _ => none

/-- Reads one piece. Outside the root there may only be spaces and remarks. -/
def Progress.step? (progress : Progress) : Piece → Option Progress
  | .remark => some progress
  | .marked => if progress.pending.isEmpty then none else some progress
  | .text raw =>
    if progress.pending.isEmpty then if raw.all isSpace then some progress else none
    else (resolve? raw).map fun _ => progress
  | .opening name attributes isEmpty => do
    if progress.pending.isEmpty && progress.root.isSome then none
    let scope := (progress.pending.head?.map Open.scope).getD []
    let element ← Open.ofTag? scope name attributes
    if isEmpty then progress.finish? element.close
    else some { progress with pending := element :: progress.pending }
  | .closing name =>
    match progress.pending with
    | element :: outer =>
      if element.name = name then { progress with pending := outer }.finish? element.close else none
    | [] => none

def Element.ofPieces? (pieces : List Piece) : Option Element := do
  let progress ← pieces.foldlM Progress.step? ⟨[], none⟩
  if progress.pending.isEmpty then progress.root else none

/-- Skips the spaces after an item of the declaration; without spaces the declaration has to end. -/
def itemEnd? (text : Text) : Option Text :=
  if text.head?.any isSpace then some (skipSpaces text)
  else if text = [] || (after? ['?', '>'] text).isSome then some text
  else none

/-- Reads an item of the declaration, if its name begins with the given word. -/
def item? (word text : Text) : Option Text :=
  if (after? word text).isSome then (assignment? text).map Prod.snd else none

/-- Skips the declaration at the beginning of a document, after its opening mark: a version, and
after it possibly an encoding and a note whether the document stands alone. -/
def declared? (text : Text) : Option Text := do
  let text ← itemEnd? (← item? "version".toList (skipSpaces text))
  let text ← if (after? "encoding".toList text).isSome then
      item? "encoding".toList text >>= itemEnd?
    else some text
  let text ← if (after? "standalone".toList text).isSome then item? "standalone".toList text
    else some text
  after? ['?', '>'] (skipSpaces text)

/-- Skips a byte order mark and the declaration, as far as they are there. -/
def body? (text : Text) : Option Text :=
  let text := (after? ['\uFEFF'] text).getD text
  match after? "<?xml ".toList text with
  | some rest => declared? rest
  | none => some text

/-- The root of a document, if the document is well-formed. -/
def Element.ofText? (text : Text) : Option Element := do
  Element.ofPieces? (← pieces? (← body? text))

end Markup

end RoutingPolicy
