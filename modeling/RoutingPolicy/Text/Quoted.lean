import RoutingPolicy.Text.Escaped

/-!
# Quoted text

The form in which a log message shows a text that may be empty or hold anything: between double
quotes, with backslash escapes for the quote, the backslash, the common controls and every character
that would not show by itself.
-/

namespace RoutingPolicy

namespace Text

def quotedChar (c : Char) : Text :=
  if c = '\x00' then ['\\', '0']
  else if c = '\t' then ['\\', 't']
  else if c = '\r' then ['\\', 'r']
  else if c = '\n' then ['\\', 'n']
  else if c = '"' then ['\\', '"']
  else if c = '\\' then ['\\', '\\']
  else if isEscaped c then ['\\', 'u', '{'] ++ Nat.toDigits 16 c.toNat ++ ['}']
  else [c]

def quoted (text : Text) : Text := ['"'] ++ text.flatMap quotedChar ++ ['"']

/-- A text that may be absent: `None`, or `Some` of the quoted text. -/
def quoted? : Option Text → Text
  | none => "None".toList
  | some text => "Some(".toList ++ quoted text ++ ")".toList

end Text

end RoutingPolicy
