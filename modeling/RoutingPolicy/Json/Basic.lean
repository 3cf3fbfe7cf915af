import RoutingPolicy.Text.Numeral

/-!
# JSON

Values of the data format JSON as far as reports need them, and their two written forms: compact,
and indented by two spaces. Strings escape quotes, backslashes and controls and nothing else.
-/

namespace RoutingPolicy

/-- A JSON value. Objects list their members in the order in which they are written. -/
inductive Json where
  | null
  | bool (value : Bool)
  | number (value : Nat)
  | string (value : Text)
  | array (items : List Json)
  | object (members : List (Text × Json))

namespace Json

def escapedChar (c : Char) : Text :=
  if c = '"' then ['\\', '"']
  else if c = '\\' then ['\\', '\\']
  else if c = '\n' then ['\\', 'n']
  else if c = '\t' then ['\\', 't']
  else if c = '\r' then ['\\', 'r']
  else if c = '\x08' then ['\\', 'b']
  else if c = '\x0c' then ['\\', 'f']
  else if c.toNat < 0x20 then ['\\', 'u'] ++ Text.hexPadded 4 c.toNat
  else [c]

def stringText (text : Text) : Text := ['"'] ++ text.flatMap escapedChar ++ ['"']

def boolText : Bool → Text
  | true => "true".toList
  | false => "false".toList

mutual

def compact : Json → Text
  | null => "null".toList
  | bool value => boolText value
  | number value => Text.decimal value
  | string value => stringText value
  | array items => ['['] ++ compactItems items ++ [']']
  | object members => ['{'] ++ compactMembers members ++ ['}']

def compactItems : List Json → Text
  | [] => []
  | [item] => item.compact
  | item :: items => item.compact ++ [','] ++ compactItems items

def compactMembers : List (Text × Json) → Text
  | [] => []
  | [(name, value)] => stringText name ++ [':'] ++ value.compact
  | (name, value) :: members =>
    stringText name ++ [':'] ++ value.compact ++ [','] ++ compactMembers members

end

/-- A new line with the given depth of indentation. -/
def lineBreak (depth : Nat) : Text := '\n' :: List.replicate (2 * depth) ' '

mutual

def prettyAt (depth : Nat) : Json → Text
  | null => "null".toList
  | bool value => boolText value
  | number value => Text.decimal value
  | string value => stringText value
  | array [] => ['[', ']']
  | array (item :: items) =>
    ['['] ++ prettyItems (depth + 1) (item :: items) ++ lineBreak depth ++ [']']
  | object [] => ['{', '}']
  | object (member :: members) =>
    ['{'] ++ prettyMembers (depth + 1) (member :: members) ++ lineBreak depth ++ ['}']

/-- The items of an indented array, each on a line of its own. -/
def prettyItems (depth : Nat) : List Json → Text
  | [] => []
  | [item] => lineBreak depth ++ item.prettyAt depth
  | item :: items =>
    lineBreak depth ++ item.prettyAt depth ++ [','] ++ prettyItems depth items

/-- The members of an indented object, each on a line of its own. -/
def prettyMembers (depth : Nat) : List (Text × Json) → Text
  | [] => []
  | [(name, value)] => lineBreak depth ++ stringText name ++ [':', ' '] ++ value.prettyAt depth
  | (name, value) :: members =>
    lineBreak depth ++ stringText name ++ [':', ' '] ++ value.prettyAt depth ++ [','] ++
      prettyMembers depth members

end

def pretty (value : Json) : Text := value.prettyAt 0

def optional : Option Json → Json
  | none => null
  | some value => value

end Json

end RoutingPolicy
