import RoutingPolicy.Markup.Reference

/-!
# Pieces of markup

A document is a sequence of tags, texts between them, and pieces without meaning here: comments,
instructions and marked sections. This module cuts a document into these pieces and refuses what is
none of them; whether the tags fit together is decided afterwards.
-/

namespace RoutingPolicy

namespace Markup

/-- A name with a namespace part, which is empty if the name has none. -/
structure Name where
  space : Text
  base : Text
deriving DecidableEq

/-- An attribute as written in a tag, with its value normalized. -/
structure TagAttribute where
  name : Name
  value : Text
deriving DecidableEq

/-- A piece of a document. -/
inductive Piece where
  /-- A start tag; an empty one is its own end tag. -/
  | opening (name : Name) (attributes : List TagAttribute) (isEmpty : Bool)
  | closing (name : Name)
  | text (raw : Text)
  /-- A marked section, which counts as text. -/
  | marked
  /-- A comment or an instruction. -/
  | remark

def after? (head text : Text) : Option Text :=
  if head.isPrefixOf text then some (text.drop head.length) else none

/-- The text around the first occurrence of `mark`; what comes before it may only hold characters
that a document may hold. -/
def upTo? (mark text : Text) : Option (Text × Text) :=
  (Text.splitAt? mark text).filter fun (before, _) => before.all isAllowed

/-- Reads a name with at most one colon. -/
def name? (text : Text) : Option (Name × Text) :=
  let (word, rest) := text.span isNameChar
  let name? : Option Name :=
    match Text.splitOn ':' word with
    | [base] => some ⟨[], base⟩
    | [space, base] => some ⟨space, base⟩
    | _ => none
  match name? with
  | none => none
  | some name =>
    if (name.space.head?.all isNameStart) && name.base.head?.any isNameStart then some (name, rest)
    else none

def equals? (text : Text) : Option Text :=
  (after? ['='] (skipSpaces text)).map skipSpaces

/-- Reads a value between quotes of one kind, without resolving its references. -/
def quotedValue? : Text → Option (Text × Text)
  | quote :: text =>
    if quote = '"' ∨ quote = '\'' then
      (upTo? [quote] text).filter fun (value, _) => !value.contains '<'
    else none
  | [] => none

def assignment? (text : Text) : Option ((Name × Text) × Text) := do
  let (name, rest) ← name? text
  let (value, rest) ← quotedValue? (← equals? rest)
  return ((name, value), rest)

/-- Reads the rest of a start tag after its name, taking at most `fuel` attributes. The last
component of the result is set if the tag is its own end tag. -/
def tagRest? : Nat → Text → Option (List TagAttribute × Bool × Text)
  | 0, _ => none
  | fuel + 1, text =>
    match skipSpaces text with
    | '>' :: rest => some ([], false, rest)
    | '/' :: rest => (after? ['>'] rest).map fun rest => ([], true, rest)
    | body =>
      if text.head?.any isSpace then do
        let ((name, value), rest) ← assignment? body
        let value := normalized (← resolve? value)
        let (attributes, isEmpty, rest) ← tagRest? fuel rest
        return (⟨name, value⟩ :: attributes, isEmpty, rest)
      else none

/-- Reads a comment after its opening mark. -/
def comment? (text : Text) : Option Text := do
  let (body, rest) ← upTo? "-->".toList text
  if (Text.splitAt? ['-', '-'] body).isSome || body.getLast? == some '-' then none else some rest

def instruction? (text : Text) : Option Text :=
  if (after? "xml ".toList text).isSome || !text.head?.any isNameStart then none
  else (upTo? ['?', '>'] (skipSpaces (text.dropWhile isNameChar))).map Prod.snd

/-- Reads a start tag after its opening mark. No tag holds the character `<`, so the attributes are
at most as many as the characters before the next one. -/
def opening? (text : Text) : Option (Piece × Text) := do
  let (name, rest) ← name? text
  let room := (rest.takeWhile (· != '<')).length
  let (attributes, isEmpty, rest) ← tagRest? (room + 1) rest
  return (.opening name attributes isEmpty, rest)

def closing? (text : Text) : Option (Piece × Text) := do
  let (name, rest) ← name? text
  return (.closing name, ← after? ['>'] (skipSpaces rest))

def text? (text : Text) : Option (Piece × Text) :=
  let (raw, rest) := text.span (· != '<')
  if raw.all isAllowed && (Text.splitAt? "]]>".toList raw).isNone then some (.text raw, rest)
  else none

def piece? (text : Text) : Option (Piece × Text) :=
  match text with
  | '<' :: '!' :: rest =>
    match after? ['-', '-'] rest, after? "[CDATA[".toList rest with
    | some body, _ => (comment? body).map (.remark, ·)
    | none, some body => (upTo? "]]>".toList body).map fun (_, rest) => (.marked, rest)
    | none, none => none
  | '<' :: '?' :: rest => (instruction? rest).map (.remark, ·)
  | '<' :: '/' :: rest => closing? rest
  | '<' :: rest => opening? rest
  | _ => text? text

/-- Cuts a text into at most `fuel` pieces. -/
def cut? : Nat → Text → Option (List Piece)
  | _, [] => some []
  | 0, _ => none
  | fuel + 1, text => do
    let (piece, rest) ← piece? text
    return piece :: (← cut? fuel rest)

/-- The pieces of a text. None of them is empty, so there are at most as many as characters. -/
def pieces? (text : Text) : Option (List Piece) := cut? text.length text

end Markup

end RoutingPolicy
