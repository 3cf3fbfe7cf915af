import RoutingPolicy.Proofs.Rule.Position
import RoutingPolicy.Proofs.Text.Slice

/-!
# Tokens by checked slices

The readers of a rule once more, in the form in which they cut: by byte positions of a text and by
indices of a token list, where a position is computed in one place and used in another. Each cut can
fail, and `none` stands for one that is out of range; a reader that may find nothing has an option
inside. Here is the tokenizer, with what the other readers ask of tokens. It never fails, and its tokens
mark places at which their text can be cut.
-/

namespace RoutingPolicy

open Text

namespace Checked

/-- The word that ends at byte `offset`, if one has begun. -/
def wordBefore? (text : Text) (offset : Nat) : Option Nat → Option (List Token)
  | none => some []
  | some start => (slice? start offset text).map fun word => [⟨word, start⟩]

/-- Scans what is left of a text from byte `offset` on. If the character in front of it is in a word,
`begun` is where that word begins; the word is cut out when it ends. -/
def scan? (text : Text) (offset : Nat) (begun : Option Nat) : Text → Option (List Token)
  | [] => wordBefore? text offset begun
  | c :: rest =>
    if isWordChar c then scan? text (offset + c.utf8Size) (some (begun.getD offset)) rest
    else do
      let word ← wordBefore? text offset begun
      let later ← scan? text (offset + c.utf8Size) none rest
      return word ++ (if isDelimiter c then [⟨[c], offset⟩] else []) ++ later

def tokenize? (text : Text) : Option (List Token) := scan? text 0 none text

/-- The part of a text that a token covers. -/
def textOf? (text : Text) (token : Token) : Option Text := slice? token.start token.stop text

/-- The token at an index, if there is an index. -/
def tokenAt? (tokens : List Token) : Option Nat → Option (Option Token)
  | none => some none
  | some index => tokens[index]?.map some

/-- The tokens before an index. -/
def tokensTo? (index : Nat) (tokens : List Token) : Option (List Token) :=
  if index ≤ tokens.length then some (tokens.take index) else none

/-- The tokens from an index on. -/
def tokensFrom? (index : Nat) (tokens : List Token) : Option (List Token) :=
  if index ≤ tokens.length then some (tokens.drop index) else none

/-! ### The tokenizer -/

theorem scan_cons_of_not_word (start : Nat) {c : Char} (hc : ¬isWordChar c = true) (rest : Text) :
    Token.scan start (c :: rest) =
      (if isDelimiter c then [⟨[c], start⟩] else []) ++ Token.scan (start + c.utf8Size) rest := by
  rw [Token.scan]
  by_cases hblank : isBlank c = true
  · have hdelimiter : ¬isDelimiter c = true := by
      intro hdelimiter
      rw [isBlank_of_isDelimiter hdelimiter] at hblank
      exact Bool.false_ne_true hblank
    rw [if_pos hblank, if_neg hdelimiter, List.nil_append]
  · have hdelimiter : isDelimiter c = true := by simpa [isWordChar, hblank] using hc
    rw [if_neg hblank, if_pos hdelimiter, if_pos hdelimiter, List.singleton_append]

/-- Where the word begins of which the characters of `word` have been read, if these are any. -/
def begun? (before word : Text) : Option Nat := if word = [] then none else some (byteSize before)

theorem wordBefore?_eq (before word rest : Text) (hword : ∀ c ∈ word, isWordChar c = true) :
    wordBefore? (before ++ word ++ rest) (byteSize (before ++ word)) (begun? before word) =
      some (Token.scan (byteSize before) word) := by
  rw [begun?]
  split
  next hnil => rw [wordBefore?, hnil, Token.scan_nil]
  next hne =>
    rw [wordBefore?, slice?_append, Option.map_some, Token.scan_lexeme _ (.inl ⟨hne, hword⟩)]

theorem getD_begun? (before word : Text) :
    (begun? before word).getD (byteSize (before ++ word)) = byteSize before := by
  rw [begun?]
  split
  next hnil => rw [hnil, List.append_nil, Option.getD_none]
  next => rw [Option.getD_some]

/-- The scanner goes through a word character by character. What it finds inside a word are the tokens
of what it has read of the word and the rest together. -/
theorem scan?_eq (before word rest : Text) (hword : ∀ c ∈ word, isWordChar c = true) :
    scan? (before ++ word ++ rest) (byteSize (before ++ word)) (begun? before word) rest =
      some (Token.scan (byteSize before) (word ++ rest)) := by
  induction rest generalizing before word with
  | nil => rw [scan?, wordBefore?_eq before word [] hword, List.append_nil]
  | cons c rest ih =>
    rw [scan?]
    split
    next hc =>
      have hnext : scan? (before ++ word ++ c :: rest) (byteSize (before ++ word) + c.utf8Size)
          (begun? before (word ++ [c])) rest =
            some (Token.scan (byteSize before) (word ++ c :: rest)) := by
        simpa [Nat.add_assoc] using ih before (word ++ [c])
          (List.forall_mem_append.2 ⟨hword, List.forall_mem_singleton.2 hc⟩)
      rw [begun?, if_neg (List.concat_ne_nil c word)] at hnext
      rw [getD_begun?, hnext]
    next hc =>
      have hnext : scan? (before ++ word ++ c :: rest) (byteSize (before ++ word) + c.utf8Size)
          none rest = some (Token.scan (byteSize (before ++ word) + c.utf8Size) rest) := by
        simpa [begun?, Nat.add_assoc] using ih (before ++ word ++ [c]) [] (by simp)
      have happart : Apart word (c :: rest) := apart_cons word rest (Bool.of_not_eq_true hc)
      rw [wordBefore?_eq before word _ hword, hnext, Token.scan_append _ happart,
        scan_cons_of_not_word _ hc, ← List.append_assoc, byteSize_append]
      rfl

theorem tokenize?_eq (text : Text) : tokenize? text = some (tokenize text) :=
  scan?_eq [] [] text (by simp)

/-! ### Tokens in the text they come from -/

variable {text : Text} {tokens : List Token} {token : Token}

theorem exists_append_of_mem_tokenize (htoken : token ∈ tokenize text) :
    ∃ before after, text = before ++ token.text ++ after ∧ byteSize before = token.start ∧
      byteSize (before ++ token.text) = token.stop := by
  obtain ⟨before, after, -, htext, hstart⟩ := Token.exists_cut_of_mem_scan htoken
  rw [Nat.zero_add] at hstart
  exact ⟨before, after, htext, hstart.symm, by rw [byteSize_append, Token.stop, hstart]⟩

theorem textOf?_eq (htoken : token ∈ tokenize text) : textOf? text token = some token.text :=
  slice?_eq_some_iff.2 (exists_append_of_mem_tokenize htoken)

theorem isBoundary_start (htoken : token ∈ tokenize text) : IsBoundary token.start text := by
  obtain ⟨before, after, htext, hstart, -⟩ := exists_append_of_mem_tokenize htoken
  exact isBoundary_iff.2 ⟨before, token.text ++ after, by rw [htext, List.append_assoc], hstart⟩

theorem isBoundary_stop (htoken : token ∈ tokenize text) : IsBoundary token.stop text := by
  obtain ⟨before, after, htext, -, hstop⟩ := exists_append_of_mem_tokenize htoken
  exact isBoundary_iff.2 ⟨before ++ token.text, after, htext, hstop⟩

/-- Tokens stand one behind the other. -/
theorem stop_le_start {earlier later : List Token} {token other : Token}
    (htokens : tokenize text = earlier ++ token :: later) (hother : other ∈ later) :
    token.stop ≤ other.start := by
  have hpairwise := Token.pairwise_scan 0 text
  rw [← tokenize, htokens, List.pairwise_append] at hpairwise
  exact (List.pairwise_cons.1 hpairwise.2.1).1 other hother

/-! ### Looking up tokens -/

theorem tokenAt?_firstIndex? (keyword : Keyword) (tokens : List Token) :
    tokenAt? tokens (Token.firstIndex? keyword tokens) = some (Token.first? keyword tokens) := by
  rw [Token.first?, List.find?_eq_bind_findIdx?_getElem?, ← Token.firstIndex?]
  cases hindex : Token.firstIndex? keyword tokens with
  | none => rfl
  | some index =>
    obtain ⟨hlt, -⟩ := List.findIdx?_eq_some_iff_getElem.1 hindex
    rw [tokenAt?, Option.bind_some, List.getElem?_eq_getElem hlt, Option.map_some]

theorem first?_reverse (keyword : Keyword) (tokens : List Token) :
    Token.first? keyword tokens.reverse = Token.last? keyword tokens := by
  rw [Token.first?, ← List.head?_filter, List.filter_reverse, List.head?_reverse, Token.last?]

theorem tokenAt?_lastIndex? (keyword : Keyword) (tokens : List Token) :
    tokenAt? tokens (Token.lastIndex? keyword tokens) = some (Token.last? keyword tokens) := by
  rw [← first?_reverse, Token.lastIndex?]
  have hfirst := tokenAt?_firstIndex? keyword tokens.reverse
  cases hindex : Token.firstIndex? keyword tokens.reverse with
  | none =>
    rw [hindex] at hfirst
    exact hfirst
  | some index =>
    obtain ⟨hlt, -⟩ := List.findIdx?_eq_some_iff_getElem.1 hindex
    rw [hindex, tokenAt?, List.getElem?_reverse (by simpa using hlt)] at hfirst
    exact hfirst

theorem tokensTo?_eq {index : Nat} (hle : index ≤ tokens.length) :
    tokensTo? index tokens = some (tokens.take index) := if_pos hle

theorem tokensFrom?_eq {index : Nat} (hle : index ≤ tokens.length) :
    tokensFrom? index tokens = some (tokens.drop index) := if_pos hle

end Checked

end RoutingPolicy
