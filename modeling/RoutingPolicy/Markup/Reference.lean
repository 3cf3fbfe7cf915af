import RoutingPolicy.Markup.Character
import RoutingPolicy.Text.Numeral

/-!
# References in markup

A reference stands for a character: by its number, or by one of the five names that every document
knows. No other names are defined, since documents with a type declaration are refused.
-/

namespace RoutingPolicy

namespace Markup

def namedCharacters : List (Text × Char) :=
  [("quot".toList, '"'), ("amp".toList, '&'), ("apos".toList, '\''), ("lt".toList, '<'),
   ("gt".toList, '>')]

/-- The character of a code. A number that belongs to no character stands for U+FFFD, but it has to
fit in 32 bits. -/
def charOfCode? (n : Nat) : Option Char :=
  if n < UInt32.size then
    let c := if n.isValidChar then Char.ofNat n else Char.ofNat 0xFFFD
    if isAllowed c then some c else none
  else none

/-- The character that stands between `&` and `;` by number or by name. -/
def referenced? : Text → Option Char
  | '#' :: 'x' :: digits => (Text.number? 16 digits).bind charOfCode?
  | '#' :: digits => (Text.number? 10 digits).bind charOfCode?
  | name => namedCharacters.lookup name

/-- A character of a value, with the mark that it came from a reference. -/
abbrev Sourced := Char × Bool

/-- The characters of what stands between one `&` and the next: a reference up to its semicolon, and
the characters after it. -/
def resolvePiece? (piece : Text) : Option (List Sourced) := do
  let (body, literal) ← Text.splitAt? [';'] piece
  let c ← referenced? body
  return (c, true) :: literal.map (·, false)

/-- The characters of a text with its references resolved, if all of them can be. -/
def resolve? (text : Text) : Option (List Sourced) :=
  match Text.splitOn '&' text with
  | [] => some []
  | literal :: pieces =>
    (pieces.mapM resolvePiece?).map fun resolved => literal.map (·, false) ++ resolved.flatten

/-- An attribute value as it counts: a line end, a tab or a carriage return in it becomes a space,
and so does the pair of the two at a line end. Characters from references stay. -/
def normalized : List Sourced → Text
  | [] => []
  | ('\r', false) :: ('\n', false) :: rest => ' ' :: normalized rest
  | (c, isReference) :: rest =>
    (if !isReference && isSpace c then ' ' else c) :: normalized rest

end Markup

end RoutingPolicy
