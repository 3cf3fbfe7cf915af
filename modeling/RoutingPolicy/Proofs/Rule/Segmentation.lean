import Mathlib.Data.List.Pairwise
import RoutingPolicy.Proofs.Checked.Token

/-!
# The segmentation of a rule

Which tokens a text has can be told without reading it from left to right: by ranges of bytes, what
each range is taken for, and what stands in the ranges, around them and between them. `Segmentation`
lists these conditions. A list of ranges that meets them is the list that the tokenizer returns.

The conditions fix the members of the list: a range in it is a place where the text is cut at a
token, and each such place has a character that only its own range can cover. The order is fixed
because the ranges increase.
-/

namespace RoutingPolicy

open Text

/-- A range of bytes of a text, and what it is taken for. -/
structure Segment where
  kind : Token.Kind
  start : Nat
  stop : Nat
deriving DecidableEq

/-- The characters that are tokens wherever they stand, with their kinds. -/
inductive Delimits : Char → Token.Kind → Prop
  | openBrace : Delimits '{' .openBrace
  | closeBrace : Delimits '}' .closeBrace
  | semicolon : Delimits ';' .semicolon

namespace Segment

def Covers (segment : Segment) (n : Nat) : Prop := segment.start ≤ n ∧ n < segment.stop

/-- What stands in the range. -/
def textIn (text : Text) (segment : Segment) : Text :=
  dropBytes segment.start (takeBytes segment.stop text)

/-- A range with a word that does not go on before or behind it. The word is taken for a keyword if it
is the keyword's name in some letter case. -/
structure IsWordIn (text : Text) (segment : Segment) : Prop where
  inside : ∀ c ∈ segment.textIn text, isBlank c = false ∧ isDelimiter c = false
  before : ∀ c ∈ (takeBytes segment.start text).getLast?, isBlank c = true ∨ isDelimiter c = true
  after : ∀ c ∈ (dropBytes segment.stop text).head?, isBlank c = true ∨ isDelimiter c = true
  keyword_iff : ∀ keyword : Keyword, segment.kind = .keyword keyword ↔
    sameLetters keyword.name (segment.textIn text) = true
  word : (∀ keyword : Keyword, sameLetters keyword.name (segment.textIn text) = false) →
    segment.kind = .word

end Segment

/-- Ranges that divide a text into delimiters, words and blanks. -/
structure Segmentation (text : Text) (segments : List Segment) : Prop where
  nonempty : ∀ segment ∈ segments, segment.start < segment.stop
  increasing : segments.Pairwise fun segment other => segment.start < other.start
  disjoint : segments.Pairwise fun segment other => ∀ n, ¬(segment.Covers n ∧ other.Covers n)
  stop_le : ∀ segment ∈ segments, segment.stop ≤ byteSize text
  boundaries : ∀ segment ∈ segments, IsBoundary segment.start text ∧ IsBoundary segment.stop text
  blank : ∀ before c after, text = before ++ c :: after →
    (∀ segment ∈ segments, ¬segment.Covers (byteSize before)) → isBlank c = true
  delimiter : ∀ before c after kind, text = before ++ c :: after → Delimits c kind →
    ⟨kind, byteSize before, byteSize (before ++ [c])⟩ ∈ segments
  word : ∀ segment ∈ segments, (∀ c, isDelimiter c = true → segment.textIn text ≠ [c]) →
    segment.IsWordIn text

/-- The range of a token. -/
def Token.segment (token : Token) : Segment := ⟨token.kind, token.start, token.stop⟩

/-! ### Delimiters and words -/

theorem Delimits.isDelimiter {c : Char} {kind : Token.Kind} (hdelimits : Delimits c kind) :
    isDelimiter c = true := by
  cases hdelimits <;> rfl

theorem Delimits.ofText_eq {c : Char} {kind : Token.Kind} (hdelimits : Delimits c kind) :
    Token.Kind.ofText [c] = kind := by
  cases hdelimits <;> rfl

theorem exists_delimits {c : Char} (hc : isDelimiter c = true) : ∃ kind, Delimits c kind := by
  simp only [Text.isDelimiter, Bool.or_eq_true, beq_iff_eq] at hc
  obtain (rfl | rfl) | rfl := hc
  · exact ⟨_, .openBrace⟩
  · exact ⟨_, .closeBrace⟩
  · exact ⟨_, .semicolon⟩

namespace Segment

variable {before word after : Text} {kind : Token.Kind}

theorem textIn_append (before word after : Text) (kind : Token.Kind) :
    textIn (before ++ word ++ after) ⟨kind, byteSize before, byteSize (before ++ word)⟩ = word := by
  rw [textIn, takeBytes_byteSize, dropBytes_byteSize]

section IsWordIn

variable (hsegment : IsWordIn (before ++ word ++ after)
  ⟨kind, byteSize before, byteSize (before ++ word)⟩)

include hsegment

theorem IsWordIn.isWord (hne : word ≠ []) : IsWord word := by
  have hinside := hsegment.inside
  rw [textIn_append] at hinside
  exact ⟨hne, fun c hc => isWordChar_iff.2 (hinside c hc)⟩

theorem IsWordIn.cut (hne : word ≠ []) : Cut before word after where
  isLexeme := .inl (hsegment.isWord hne)
  left := by
    have hbefore := hsegment.before
    rw [takeBytes_cut] at hbefore
    exact apart_iff.2 (.inl fun c hc => isWordChar_eq_false_iff.2 (hbefore c hc))
  right := by
    have hafter := hsegment.after
    rw [dropBytes_byteSize] at hafter
    exact apart_iff.2 (.inr fun c hc => isWordChar_eq_false_iff.2 (hafter c hc))

theorem IsWordIn.kind_eq (hne : word ≠ []) : kind = Token.Kind.ofText word := by
  have hkeyword := hsegment.keyword_iff
  have hother := hsegment.word
  rw [textIn_append] at hkeyword hother
  cases hfound : Keyword.ofWord? word with
  | none =>
    rw [Token.Kind.ofText_word (hsegment.isWord hne) hfound]
    apply hother
    intro keyword
    rw [← Bool.not_eq_true, ← Keyword.ofWord?_eq_some_iff, hfound]
    exact (Option.some_ne_none keyword).symm
  | some keyword =>
    rw [Token.Kind.ofText_eq_keyword_iff.2 hfound]
    exact (hkeyword keyword).2 (Keyword.ofWord?_eq_some_iff.1 hfound)

end IsWordIn

theorem isWordIn_of_cut (hcut : Cut before word after) (hword : IsWord word) :
    IsWordIn (before ++ word ++ after)
      ⟨Token.Kind.ofText word, byteSize before, byteSize (before ++ word)⟩ where
  inside := by
    rw [textIn_append]
    exact fun c hc => isWordChar_iff.1 (hword.2 c hc)
  before := by
    rw [takeBytes_cut]
    exact fun c hc => isWordChar_eq_false_iff.1 (hcut.left.left_of_isWord hword c hc)
  after := by
    rw [dropBytes_byteSize]
    exact fun c hc => isWordChar_eq_false_iff.1 (hcut.right.right_of_isWord hword c hc)
  keyword_iff := by
    intro keyword
    rw [textIn_append, Token.Kind.ofText_eq_keyword_iff, Keyword.ofWord?_eq_some_iff]
  word := by
    intro hnone
    rw [textIn_append] at hnone
    apply Token.Kind.ofText_word hword
    cases hkeyword : Keyword.ofWord? word with
    | none => rfl
    | some keyword =>
      rw [Keyword.ofWord?_eq_some_iff, hnone keyword] at hkeyword
      exact absurd hkeyword Bool.false_ne_true

end Segment

/-! ### The tokens of a text -/

section Tokens

variable {text : Text} {token : Token}

theorem exists_segment_eq (htoken : token ∈ tokenize text) : ∃ before after,
    Cut before token.text after ∧ text = before ++ token.text ++ after ∧
      token.segment = ⟨token.kind, byteSize before, byteSize (before ++ token.text)⟩ := by
  obtain ⟨before, after, hcut, htext, hstart⟩ := Token.exists_cut_of_mem_scan htoken
  rw [Nat.zero_add] at hstart
  refine ⟨before, after, hcut, htext, ?_⟩
  rw [Token.segment, Token.stop, hstart, byteSize_append]

theorem Cut.mem_segments {before lexeme after : Text} (hcut : Cut before lexeme after) :
    ⟨Token.Kind.ofText lexeme, byteSize before, byteSize (before ++ lexeme)⟩ ∈
      (tokenize (before ++ lexeme ++ after)).map Token.segment := by
  apply List.mem_map.2
  refine ⟨_, hcut.mem_tokenize, ?_⟩
  rw [byteSize_append]
  rfl

theorem exists_covers {c : Char} (hc : isBlank c = false) (before after : Text) :
    ∃ segment ∈ (tokenize (before ++ c :: after)).map Token.segment,
      segment.Covers (byteSize before) := by
  obtain ⟨front, left, right, behind, hcut, rfl, rfl⟩ := exists_cut_around hc before after
  have hmem := hcut.mem_segments
  have htext : front ++ (left ++ c :: right) ++ behind = front ++ left ++ c :: (right ++ behind) := by
    simp
  rw [htext] at hmem
  refine ⟨_, hmem, ?_⟩
  have hsize := c.utf8Size_pos
  simp only [Segment.Covers, byteSize_append, byteSize_cons]
  omega

theorem textIn_segment (htoken : token ∈ tokenize text) :
    token.segment.textIn text = token.text := by
  obtain ⟨before, after, -, rfl, hsegment⟩ := exists_segment_eq htoken
  rw [hsegment, Segment.textIn_append]

theorem segmentation_tokenize (text : Text) :
    Segmentation text ((tokenize text).map Token.segment) where
  nonempty := List.forall_mem_map.2 fun token htoken => Token.start_lt_stop htoken
  increasing := List.pairwise_map.2 <| (Token.pairwise_scan 0 text).imp_of_mem
    fun htoken _ hle => Nat.lt_of_lt_of_le (Token.start_lt_stop htoken) hle
  disjoint := by
    apply List.pairwise_map.2
    refine (Token.pairwise_scan 0 text).imp ?_
    intro token other hle n hcovers
    simp only [Segment.Covers, Token.segment] at hcovers
    omega
  stop_le := List.forall_mem_map.2 fun token htoken =>
    (Checked.isBoundary_stop htoken).le_byteSize
  boundaries := List.forall_mem_map.2 fun token htoken =>
    ⟨Checked.isBoundary_start htoken, Checked.isBoundary_stop htoken⟩
  blank := by
    rintro before c after rfl houtside
    by_contra hblank
    obtain ⟨segment, hmem, hcovers⟩ := exists_covers (Bool.of_not_eq_true hblank) before after
    exact houtside segment hmem hcovers
  delimiter := by
    rintro before c after kind rfl hdelimits
    have hmem := (cut_delimiter hdelimits.isDelimiter before after).mem_segments
    rwa [hdelimits.ofText_eq, List.append_assoc, List.singleton_append] at hmem
  word := by
    refine List.forall_mem_map.2 ?_
    intro token htoken hother
    rw [textIn_segment htoken] at hother
    obtain ⟨before, after, hcut, rfl, hsegment⟩ := exists_segment_eq htoken
    rw [hsegment]
    rcases hcut.isLexeme with hword | ⟨c, hc, htext⟩
    · exact Segment.isWordIn_of_cut hcut hword
    · exact absurd htext (hother c hc)

end Tokens

/-! ### Any segmentation -/

namespace Segmentation

variable {text : Text} {segments : List Segment} {segment other : Segment}

theorem covers_start (hsegments : Segmentation text segments) (hmem : segment ∈ segments) :
    segment.Covers segment.start :=
  ⟨Nat.le_refl _, hsegments.nonempty segment hmem⟩

theorem nodup (hsegments : Segmentation text segments) : segments.Nodup :=
  hsegments.increasing.imp fun hlt heq => Nat.ne_of_lt hlt (congrArg Segment.start heq)

theorem eq_of_covers (hsegments : Segmentation text segments) (hsegment : segment ∈ segments)
    (hother : other ∈ segments) {n : Nat} (hcovers : segment.Covers n)
    (hcovers' : other.Covers n) : segment = other := by
  by_contra hne
  have hsymm : Std.Symm fun segment other : Segment => ∀ n, ¬(segment.Covers n ∧ other.Covers n) :=
    ⟨fun _ _ hdisjoint n hboth => hdisjoint n hboth.symm⟩
  exact hsegments.disjoint.forall hsegment hother hne n ⟨hcovers, hcovers'⟩

theorem cut_and_kind {before part after : Text} {kind : Token.Kind}
    (hsegments : Segmentation (before ++ part ++ after) segments)
    (hmem : ⟨kind, byteSize before, byteSize (before ++ part)⟩ ∈ segments) :
    Cut before part after ∧ kind = Token.Kind.ofText part := by
  by_cases hdelimiter : ∃ c, isDelimiter c = true ∧ part = [c]
  · -- the delimiter's own range is in the list, and there is no other one at its place
    obtain ⟨c, hc, rfl⟩ := hdelimiter
    obtain ⟨other, hother⟩ := exists_delimits hc
    have hown := hsegments.delimiter before c after other (by simp) hother
    have hsame := hsegments.eq_of_covers hmem hown (hsegments.covers_start hmem)
      (hsegments.covers_start hown)
    refine ⟨cut_delimiter hc before after, ?_⟩
    rw [hother.ofText_eq]
    exact congrArg Segment.kind hsame
  · have hne : part ≠ [] := by
      rintro rfl
      have hlt := hsegments.nonempty _ hmem
      rw [List.append_nil] at hlt
      exact Nat.lt_irrefl _ hlt
    have hword := hsegments.word _ hmem fun c hc hpart =>
      hdelimiter ⟨c, hc, by rwa [Segment.textIn_append] at hpart⟩
    exact ⟨hword.cut hne, hword.kind_eq hne⟩

/-- Every range is that of a token. -/
theorem mem_segments (hsegments : Segmentation text segments) (hmem : segment ∈ segments) :
    segment ∈ (tokenize text).map Token.segment := by
  obtain ⟨hstart, hstop⟩ := hsegments.boundaries segment hmem
  have hle : segment.start ≤ segment.stop := Nat.le_of_lt (hsegments.nonempty segment hmem)
  obtain ⟨part, hpart⟩ : ∃ part, slice? segment.start segment.stop text = some part :=
    ⟨_, slice?_eq_some hle hstart hstop⟩
  obtain ⟨kind, start, stop⟩ := segment
  obtain ⟨before, after, rfl, rfl, rfl⟩ := slice?_eq_some_iff.1 hpart
  obtain ⟨hcut, rfl⟩ := hsegments.cut_and_kind hmem
  exact hcut.mem_segments

/-- The range of every token is there. Its first character is not blank, so some range covers it, and
that range is the one of a token, which can only be the same one. -/
theorem mem_of_mem_segments (hsegments : Segmentation text segments)
    (hmem : segment ∈ (tokenize text).map Token.segment) : segment ∈ segments := by
  obtain ⟨token, htoken, rfl⟩ := List.mem_map.1 hmem
  obtain ⟨before, after, hcut, htext, hsegment⟩ := exists_segment_eq htoken
  obtain ⟨c, rest, hrest⟩ := List.exists_cons_of_ne_nil hcut.isLexeme.ne_nil
  have hblank : isBlank c = false := hcut.isLexeme.isBlank_eq_false (by rw [hrest]; simp)
  obtain ⟨other, hother, hcovers⟩ :
      ∃ other ∈ segments, other.Covers (byteSize before) := by
    by_contra houtside
    have hc := hsegments.blank before c (rest ++ after) (by rw [htext, hrest]; simp)
      fun other hother hcovers => houtside ⟨other, hother, hcovers⟩
    rw [hblank] at hc
    exact Bool.false_ne_true hc
  have hsame : other = token.segment := by
    refine (segmentation_tokenize text).eq_of_covers (hsegments.mem_segments hother) hmem hcovers ?_
    have hstart := (segmentation_tokenize text).covers_start hmem
    rwa [hsegment] at hstart ⊢
  rwa [← hsame]

end Segmentation

/-- A list of ranges is a segmentation of a text exactly when it is what the tokenizer returns for the
text, and the texts of the tokens are what stands in these ranges. -/
theorem segmentation_iff (text : Text) :
    (∀ segments, Segmentation text segments ↔ segments = (tokenize text).map Token.segment) ∧
      ((tokenize text).map Token.segment).map (Segment.textIn text) =
        (tokenize text).map Token.text := by
  constructor
  · intro segments
    constructor
    · intro hsegments
      have hmem : ∀ segment, segment ∈ segments ↔ segment ∈ (tokenize text).map Token.segment :=
        fun segment => ⟨hsegments.mem_segments, hsegments.mem_of_mem_segments⟩
      have htokens := segmentation_tokenize text
      have hperm : segments.Perm ((tokenize text).map Token.segment) :=
        (List.perm_ext_iff_of_nodup hsegments.nodup htokens.nodup).2 hmem
      refine hperm.eq_of_pairwise ?_ hsegments.increasing htokens.increasing
      intro segment other _ _ hlt hgt
      exact absurd hlt (Nat.lt_asymm hgt)
    · rintro rfl
      exact segmentation_tokenize text
  · rw [List.map_map]
    exact List.map_congr_left fun token htoken => textIn_segment htoken

example : (tokenize "é;At".toList).map Token.segment =
    [⟨.word, 0, 2⟩, ⟨.semicolon, 2, 3⟩, ⟨.keyword .atRouter, 3, 5⟩] := by decide +kernel

end RoutingPolicy
