import RoutingPolicy.Proofs.Rule.Padding
import RoutingPolicy.Proofs.Text.Slice

/-!
# Tokens of slices

The readers divide a rule into tokens, cut out what stands between two of them, and divide that slice
into tokens once more. They find the tokens that the rule has there, because no word runs across a
place at which a token begins or ends. Where a word does run across, the tokens of the two parts are
not those of the whole.
-/

namespace RoutingPolicy

open Text

/-- The number of bytes of the blanks in front of a text, which is where the trimmed text begins. -/
def Text.indent (text : Text) : Nat := byteSize (text.takeWhile isBlank)

/-- One of the two ends of a text, or a place at which one of its tokens begins or ends. -/
def IsTokenBoundary (n : Nat) (text : Text) : Prop :=
  n = 0 ∨ n = byteSize text ∨ ∃ token ∈ tokenize text, n = token.start ∨ n = token.stop

instance (n : Nat) (text : Text) : Decidable (IsTokenBoundary n text) :=
  inferInstanceAs (Decidable
    (n = 0 ∨ n = byteSize text ∨ ∃ token ∈ tokenize text, n = token.start ∨ n = token.stop))

/-- Whether a token lies between two places. -/
def Token.Between (start stop : Nat) (token : Token) : Prop := start ≤ token.start ∧ token.stop ≤ stop

instance (start stop : Nat) : DecidablePred (Token.Between start stop) := fun token =>
  inferInstanceAs (Decidable (start ≤ token.start ∧ token.stop ≤ stop))

def tokensBetween (start stop : Nat) (text : Text) : List Token :=
  (tokenize text).filter (Token.Between start stop)

/-! ### Tokens of two parts -/

theorem tokenize_append {before after : Text} (happart : Apart before after) :
    tokenize (before ++ after) =
      tokenize before ++ (tokenize after).map (Token.shift (byteSize before)) := by
  rw [tokenize, Token.scan_append 0 happart, Nat.zero_add, ← tokenize, Token.scan_eq_map_shift]

/-- If a word runs across the seam, there is a token that neither of the parts has. -/
theorem apart_of_tokenize_append {before after : Text}
    (htokens : tokenize (before ++ after) =
      tokenize before ++ (tokenize after).map (Token.shift (byteSize before))) :
    Apart before after := by
  intro c hc d hd hword
  by_contra hnot
  obtain ⟨front, rfl⟩ := List.getLast?_eq_some_iff.1 hc
  obtain ⟨rest, rfl⟩ := List.head?_eq_some_iff.1 hd
  obtain ⟨first, left, right, behind, hcut, rfl, hright⟩ :=
    exists_cut_around (isBlank_of_isWordChar hword) front (d :: rest)
  have hne : right ≠ [] := by
    rintro rfl
    rw [List.nil_append] at hright
    subst hright
    exact hnot (hcut.right c (by simp) d rfl hword)
  have hmem := hcut.mem_tokenize
  have htext : first ++ (left ++ c :: right) ++ behind = first ++ left ++ [c] ++ d :: rest := by
    rw [hright]
    simp
  have hsize := c.utf8Size_pos
  have hmore := byteSize_pos hne
  rw [htext, htokens, List.mem_append] at hmem
  rcases hmem with hbefore | hafter
  · have hstop := Token.stop_le_of_mem_scan hbefore
    simp only [Token.stop, byteSize_append, byteSize_cons, byteSize_nil] at hstop
    omega
  · obtain ⟨token, -, htoken⟩ := List.mem_map.1 hafter
    have hstart := congrArg Token.start htoken
    simp only [Token.shift, byteSize_append, byteSize_cons, byteSize_nil] at hstart
    omega

/-! ### Tokens of a slice -/

/-- A text can be cut at the boundaries of its tokens, and no word is cut there. -/
theorem IsTokenBoundary.exists_append {n : Nat} {text : Text} (hn : IsTokenBoundary n text) :
    ∃ before after, text = before ++ after ∧ byteSize before = n ∧ Apart before after := by
  obtain rfl | rfl | ⟨token, htoken, hn⟩ := hn
  · exact ⟨[], text, rfl, rfl, apart_nil_left text⟩
  · exact ⟨text, [], (List.append_nil text).symm, rfl, apart_nil_right text⟩
  · obtain ⟨before, after, hcut, rfl, hstart⟩ := Token.exists_cut_of_mem_scan htoken
    rw [Nat.zero_add] at hstart
    obtain rfl | rfl := hn
    · exact ⟨before, token.text ++ after, List.append_assoc _ _ _, hstart.symm,
        hcut.left.append_right hcut.isLexeme.ne_nil after⟩
    · refine ⟨before ++ token.text, after, rfl, ?_, ?_⟩
      · rw [Token.stop, hstart, byteSize_append]
      · exact hcut.right.append_left hcut.isLexeme.ne_nil before

theorem IsTokenBoundary.isBoundary {n : Nat} {text : Text} (hn : IsTokenBoundary n text) :
    IsBoundary n text := by
  obtain ⟨before, after, htext, hsize, -⟩ := hn.exists_append
  exact isBoundary_iff.2 ⟨before, after, htext, hsize⟩

theorem IsTokenBoundary.apart {before after : Text}
    (hseam : IsTokenBoundary (byteSize before) (before ++ after)) : Apart before after := by
  obtain ⟨first, rest, htext, hsize, happart⟩ := hseam.exists_append
  have hfirst : first = before := by
    rw [← takeBytes_byteSize before after, htext, ← hsize, takeBytes_byteSize]
  subst hfirst
  rwa [List.append_cancel_left htext]

theorem tokensBetween_append {before part after : Text} (hleft : Apart before (part ++ after))
    (hright : Apart (before ++ part) after) :
    tokensBetween (byteSize before) (byteSize (before ++ part)) (before ++ part ++ after) =
      (tokenize part).map (Token.shift (byteSize before)) := by
  have htokens : tokenize (before ++ part ++ after) = tokenize before ++
      Token.scan (byteSize before) part ++ Token.scan (byteSize (before ++ part)) after := by
    rw [tokenize, Token.scan_append 0 hright, Token.scan_append 0 hleft.of_append_right,
      Nat.zero_add, Nat.zero_add, tokenize]
  have hbefore : (tokenize before).filter
      (Token.Between (byteSize before) (byteSize (before ++ part))) = [] := by
    apply List.filter_eq_nil_iff.2
    intro token htoken hbetween
    obtain ⟨hstart, -⟩ := of_decide_eq_true hbetween
    have hlt := Token.start_lt_stop htoken
    have hstop := Token.stop_le_of_mem_scan htoken
    omega
  have hpart : (Token.scan (byteSize before) part).filter
      (Token.Between (byteSize before) (byteSize (before ++ part))) =
        Token.scan (byteSize before) part := by
    apply List.filter_eq_self.2
    intro token htoken
    have hstart := Token.start_le_of_mem_scan htoken
    have hstop := Token.stop_le_of_mem_scan htoken
    rw [← byteSize_append] at hstop
    exact decide_eq_true ⟨hstart, hstop⟩
  have hafter : (Token.scan (byteSize (before ++ part)) after).filter
      (Token.Between (byteSize before) (byteSize (before ++ part))) = [] := by
    apply List.filter_eq_nil_iff.2
    intro token htoken hbetween
    obtain ⟨-, hstop⟩ := of_decide_eq_true hbetween
    have hlt := Token.start_lt_stop htoken
    have hstart := Token.start_le_of_mem_scan htoken
    omega
  rw [tokensBetween, htokens, List.filter_append, List.filter_append, hbefore, hpart, hafter,
    List.nil_append, List.append_nil, Token.scan_eq_map_shift]

section Slice

variable {text part : Text} {start stop : Nat}

/-- The trimmed slice begins behind the blanks of the slice. -/
theorem slice?_trim (hpart : slice? start stop text = some part) :
    slice? (start + indent part) (start + indent part + byteSize (trim part)) text =
      some (trim part) := by
  obtain ⟨before, after, rfl, rfl, -⟩ := slice?_eq_some_iff.1 hpart
  obtain ⟨blanks, -, htrim⟩ := exists_eq_takeWhile_append_trim part
  apply slice?_eq_some_iff.2
  refine ⟨before ++ part.takeWhile isBlank, blanks ++ after, ?_, ?_, ?_⟩
  · conv_lhs => rw [htrim]
    simp only [List.append_assoc]
  · rw [byteSize_append, indent]
  · rw [byteSize_append, byteSize_append, indent]

variable (hstart : IsTokenBoundary start text) (hstop : IsTokenBoundary stop text)

include hstart hstop

theorem tokenize_slice (hpart : slice? start stop text = some part) :
    (tokenize part).map (Token.shift start) = tokensBetween start stop text := by
  obtain ⟨before, after, rfl, rfl, rfl⟩ := slice?_eq_some_iff.1 hpart
  rw [List.append_assoc] at hstart
  rw [tokensBetween_append hstart.apart hstop.apart]

theorem tokenize_trim_slice (hpart : slice? start stop text = some part) :
    (tokenize (trim part)).map (Token.shift (start + indent part)) =
      tokensBetween start stop text := by
  obtain ⟨blanks, hblanks, htrim⟩ := exists_eq_takeWhile_append_trim part
  have hlead : ∀ c ∈ part.takeWhile isBlank, isBlank c = true := fun c => List.mem_takeWhile_imp
  have hpadded := tokenize_padded hlead hblanks (trim part)
  rw [← htrim, ← indent] at hpadded
  rw [← tokenize_slice hstart hstop hpart, hpadded, List.map_map]
  apply List.map_congr_left
  intro token _
  simp only [Function.comp_apply, Token.shift, Nat.add_assoc]

end Slice

/-- The tokens of two texts in a row are those of the one and those of the other exactly when no word
runs across the seam. So a slice between two boundaries of tokens has the tokens that the text has
there, and so has the slice when it is trimmed. -/
theorem tokenize_parts :
    (∀ before after : Text,
      tokenize (before ++ after) =
          tokenize before ++ (tokenize after).map (Token.shift (byteSize before)) ↔
        (∀ c ∈ before.getLast?, isBlank c = true ∨ isDelimiter c = true) ∨
          ∀ d ∈ after.head?, isBlank d = true ∨ isDelimiter d = true) ∧
    ∀ (text : Text) (start stop : Nat), IsTokenBoundary start text → IsTokenBoundary stop text →
      start ≤ stop → ∃ part, slice? start stop text = some part ∧
        (tokenize part).map (Token.shift start) = tokensBetween start stop text ∧
        slice? (start + indent part) (start + indent part + byteSize (trim part)) text =
          some (trim part) ∧
        (tokenize (trim part)).map (Token.shift (start + indent part)) =
          tokensBetween start stop text := by
  constructor
  · intro before after
    simp only [← isWordChar_eq_false_iff, ← apart_iff]
    exact ⟨apart_of_tokenize_append, tokenize_append⟩
  · intro text start stop hstart hstop hle
    have hpart := slice?_eq_some hle hstart.isBoundary hstop.isBoundary
    exact ⟨_, hpart, tokenize_slice hstart hstop hpart, slice?_trim hpart,
      tokenize_trim_slice hstart hstop hpart⟩

/-- A slice with blanks at both ends and characters of two bytes. -/
theorem tokenize_parts_accents :
    let text := "from ä;at  ü ;x".toList
    IsTokenBoundary 4 text ∧ IsTokenBoundary 15 text ∧
      (tokenize " ä;at  ü ".toList).map (Token.shift 4) = tokensBetween 4 15 text ∧
      (tokenize "ä;at  ü".toList).map (Token.shift 5) = tokensBetween 4 15 text ∧
      tokensBetween 4 15 text =
        [⟨"ä".toList, 5⟩, ⟨[';'], 7⟩, ⟨"at".toList, 8⟩, ⟨"ü".toList, 12⟩] := by
  intro text
  have hstart : IsTokenBoundary 4 text := by decide +kernel
  have hstop : IsTokenBoundary 15 text := by decide +kernel
  obtain ⟨part, hpart, htokens, -, htrimmed⟩ := tokenize_parts.2 text 4 15 hstart hstop (by decide)
  have hslice : slice? 4 15 text = some " ä;at  ü ".toList := by decide +kernel
  obtain rfl : part = " ä;at  ü ".toList := Option.some.inj (hpart.symm.trans hslice)
  exact ⟨hstart, hstop, htokens, htrimmed, by decide +kernel⟩

end RoutingPolicy
