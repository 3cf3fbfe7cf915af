import RoutingPolicy.Rule.Keyword
import RoutingPolicy.Text.Blank

/-!
# Tokens of policy rules

A rule is a sequence of tokens between blanks. Braces and semicolons are tokens of their own, any
other run of non-blank characters is a word. A token records its text and the byte at which it
starts, so the text around it can be cut out of the rule unchanged.
-/

namespace RoutingPolicy

/-- A word or a delimiter of a rule, with the byte offset of its first character. -/
structure Token where
  text : Text
  start : Nat
deriving DecidableEq

namespace Token

/-- What a token is, as far as the rule's structure is concerned. -/
inductive Kind where
  | keyword (keyword : Keyword)
  | word
  | openBrace
  | closeBrace
  | semicolon
deriving DecidableEq

def Kind.ofText (text : Text) : Kind :=
  if text = ['{'] then openBrace
  else if text = ['}'] then closeBrace
  else if text = [';'] then semicolon
  else match Keyword.ofWord? text with
    | some k => keyword k
    | none => word

def kind (token : Token) : Kind := Kind.ofText token.text

/-- The byte offset just after the token. -/
def stop (token : Token) : Nat := token.start + Text.byteSize token.text

def isKeyword (keyword : Keyword) (token : Token) : Bool := token.kind == .keyword keyword

end Token

namespace Text

/-- Whether a character is a token of its own wherever it stands. -/
def isDelimiter (c : Char) : Bool := c == '{' || c == '}' || c == ';'

def isWordChar (c : Char) : Bool := !isBlank c && !isDelimiter c

theorem length_dropWhile_le (p : Char → Bool) (text : Text) :
    (text.dropWhile p).length ≤ text.length :=
  (List.dropWhile_suffix p).length_le

end Text

namespace Token

/-- The tokens of a text whose first character is at byte `start`. -/
def scan (start : Nat) (text : Text) : List Token :=
  match text with
  | [] => []
  | c :: rest =>
    if Text.isBlank c then scan (start + c.utf8Size) rest
    else if Text.isDelimiter c then ⟨[c], start⟩ :: scan (start + c.utf8Size) rest
    else
      let word := c :: rest.takeWhile Text.isWordChar
      ⟨word, start⟩ :: scan (start + Text.byteSize word) (rest.dropWhile Text.isWordChar)
termination_by text.length
decreasing_by
  · simp
  · simp
  · have := Text.length_dropWhile_le Text.isWordChar rest
    simp only [List.length_cons]
    omega

def first? (keyword : Keyword) (tokens : List Token) : Option Token :=
  tokens.find? (isKeyword keyword)

def last? (keyword : Keyword) (tokens : List Token) : Option Token :=
  (tokens.filter (isKeyword keyword)).getLast?

def firstIndex? (keyword : Keyword) (tokens : List Token) : Option Nat :=
  tokens.findIdx? (isKeyword keyword)

def lastIndex? (keyword : Keyword) (tokens : List Token) : Option Nat :=
  (firstIndex? keyword tokens.reverse).map fun i => tokens.length - 1 - i

end Token

def tokenize (text : Text) : List Token := Token.scan 0 text

/-- Whether the keyword occurs in the rule as a whole word. -/
def containsKeyword (text : Text) (keyword : Keyword) : Bool :=
  (tokenize text).any (Token.isKeyword keyword)

end RoutingPolicy
