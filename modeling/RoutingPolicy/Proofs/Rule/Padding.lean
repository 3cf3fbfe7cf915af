import RoutingPolicy.Proofs.Rule.Action
import RoutingPolicy.Proofs.Rule.Family
import RoutingPolicy.Proofs.Rule.Position
import RoutingPolicy.Rule.Parsed
import RoutingPolicy.Rule.Routers

/-!
# Blanks around rules

Decomposition, router addresses and actions do not depend on blanks around the rule. The address
family does: `AFI` has to be the first word of the text, and its token has to be followed by a blank.
A rule keeps its meaning under padding when the padding touches neither of the two.
-/

namespace RoutingPolicy

open Text

/-! ### Tokens of a padded text -/

section Tokens

variable {before after : Text}

theorem Text.apart_of_blanks_left (hbefore : ∀ c ∈ before, isBlank c = true) (text : Text) :
    Apart before text := by
  intro c hc _ _ hword
  have hblank := hbefore c (List.mem_of_getLast? hc)
  rw [isBlank_of_isWordChar hword] at hblank
  exact absurd hblank Bool.false_ne_true

theorem Text.apart_of_blanks_right (text : Text) (hafter : ∀ c ∈ after, isBlank c = true) :
    Apart text after := by
  intro _ _ d hd _
  have hblank := hafter d (List.mem_of_mem_head? hd)
  simp [isWordChar, hblank]

theorem tokenize_padded (hbefore : ∀ c ∈ before, isBlank c = true)
    (hafter : ∀ c ∈ after, isBlank c = true) (text : Text) :
    tokenize (before ++ text ++ after) = (tokenize text).map (Token.shift (byteSize before)) := by
  rw [tokenize, Token.scan_append 0 (apart_of_blanks_right _ hafter), Token.scan_blanks _ hafter,
    List.append_nil, Token.scan_append 0 (apart_of_blanks_left hbefore text),
    Token.scan_blanks 0 hbefore, List.nil_append, Nat.zero_add, Token.scan_eq_map_shift]

theorem lexemes_padded (hbefore : ∀ c ∈ before, isBlank c = true)
    (hafter : ∀ c ∈ after, isBlank c = true) (text : Text) :
    lexemes (before ++ text ++ after) = lexemes text := by
  rw [lexemes, tokenize_padded hbefore hafter, List.map_map, lexemes]
  rfl

end Tokens

/-! ### Router addresses -/

namespace AddressPair

/-- A search that looks at the texts of tokens only is a search among these texts. -/
theorem textBefore?_of_lexemes_eq (stop : Text → Bool) {text other : Text}
    (hlexemes : lexemes text = lexemes other) :
    textBefore? (fun token => stop token.text) (tokenize text) =
      textBefore? (fun token => stop token.text) (tokenize other) := by
  have hsearch (tokens : List Token) : textBefore? (fun token => stop token.text) tokens =
      ((tokens.map Token.text).takeWhile (!stop ·)).getLast? := by
    rw [textBefore?, List.takeWhile_map, List.getLast?_map]
    rfl
  rw [hsearch, hsearch, ← lexemes, ← lexemes, hlexemes]

/-- The router addresses are found without looking at positions. -/
theorem ofRule?_of_lexemes_eq {text other : Text} (hlexemes : lexemes text = lexemes other)
    (multiprotocol : Bool) : ofRule? text multiprotocol = ofRule? other multiprotocol := by
  have hkeyword (keyword : Keyword) : textBefore? (Token.isKeyword keyword) (tokenize text) =
      textBefore? (Token.isKeyword keyword) (tokenize other) :=
    textBefore?_of_lexemes_eq (fun lexeme => Token.Kind.ofText lexeme == .keyword keyword) hlexemes
  have hfilter : textBefore? isFilterToken (tokenize text) =
      textBefore? isFilterToken (tokenize other) :=
    textBefore?_of_lexemes_eq (fun lexeme => Decomposition.filterKeywords.any
      fun keyword => Token.Kind.ofText lexeme == .keyword keyword) hlexemes
  have hany (keyword : Keyword) : (tokenize text).any (Token.isKeyword keyword) =
      (tokenize other).any (Token.isKeyword keyword) := by
    rw [← containsKeyword, ← containsKeyword, containsKeyword_eq_any, containsKeyword_eq_any,
      hlexemes]
  simp only [ofRule?, remoteText?, localText?, hany, hkeyword, hfilter]

end AddressPair

/-! ### Actions -/

namespace ActionList

variable {before after : Text}

theorem filter_isSignificant_blanks {blanks : Text} (hblanks : ∀ c ∈ blanks, isBlank c = true) :
    blanks.filter Action.isSignificant = [] :=
  List.filter_eq_nil_iff.2 fun c hc => by simp [Action.isSignificant, hblanks c hc]

theorem clause?_append_left (hbefore : ∀ c ∈ before, isBlank c = true) (text : Text)
    (boundary : Keyword) : clause? (before ++ text) boundary = clause? text boundary := by
  have htokens : tokenize (before ++ text) =
      (tokenize text).map (Token.shift (byteSize before)) := by
    have hpadded := tokenize_padded hbefore (List.forall_mem_nil _) text
    rwa [List.append_nil] at hpadded
  have hskip : (tokenize (before ++ text)).dropWhile (!·.isKeyword .action) =
      ((tokenize text).dropWhile (!·.isKeyword .action)).map
        (Token.shift (byteSize before)) := by
    rw [htokens, List.dropWhile_map]
    rfl
  unfold clause?
  rw [hskip]
  cases (tokenize text).dropWhile (!·.isKeyword .action) with
  | nil => rfl
  | cons action later =>
    simp only [List.map_cons, Token.last?_map_shift, Token.stop_shift]
    cases Token.last? boundary later with
    | none => simp only [Option.map_none, dropBytes_byteSize_add]
    | some token =>
      simp only [Option.map_some, Token.shift, takeBytes_byteSize_add, dropBytes_byteSize_add]

/-- What has neither of the keywords that bound an action clause follows the clause or is cut off. -/
theorem clause?_append {text : Text} {boundary : Keyword} (happart : Apart text after)
    (haction : containsKeyword after .action = false)
    (hboundary : containsKeyword after boundary = false) :
    ∃ tail, (tail = [] ∨ tail = after) ∧
      clause? (text ++ after) boundary = (clause? text boundary).map (· ++ tail) := by
  have htokens : tokenize (text ++ after) =
      tokenize text ++ Token.scan (byteSize text) after := by
    rw [tokenize, Token.scan_append 0 happart, Nat.zero_add, tokenize]
  have hskip : (Token.scan (byteSize text) after).dropWhile (!·.isKeyword .action) = [] :=
    List.dropWhile_eq_nil_iff.2 fun token htoken => by
      simp [isKeyword_of_mem_scan haction htoken]
  have hsuffix := List.dropWhile_suffix (l := tokenize text) (!·.isKeyword .action)
  unfold clause?
  rw [htokens, List.dropWhile_append, hskip]
  cases hdrop : (tokenize text).dropWhile (!·.isKeyword .action) with
  | nil => exact ⟨[], .inl rfl, rfl⟩
  | cons action later =>
    rw [hdrop] at hsuffix
    have hmem : ∀ token ∈ action :: later, token ∈ tokenize text := hsuffix.subset
    have hlast : Token.last? boundary (later ++ Token.scan (byteSize text) after) =
        Token.last? boundary later :=
      Token.last?_append_of_forall (fun _ => isKeyword_of_mem_scan hboundary) later
    simp only [List.isEmpty_cons, Bool.false_eq_true, if_false, List.cons_append, hlast]
    cases hfound : Token.last? boundary later with
    | none =>
      refine ⟨after, .inr rfl, ?_⟩
      simp only [Option.map_some, dropBytes_stop_append (hmem action List.mem_cons_self)]
    | some token =>
      have htoken : token ∈ tokenize text :=
        hmem token (List.mem_cons_of_mem action (Token.mem_of_last? hfound))
      refine ⟨[], .inl rfl, ?_⟩
      simp only [Option.map_some, takeBytes_start_append htoken, List.append_nil]

theorem containsKeyword_blanks {blanks : Text} (hblanks : ∀ c ∈ blanks, isBlank c = true)
    (keyword : Keyword) : containsKeyword blanks keyword = false := by
  rw [containsKeyword, tokenize, Token.scan_blanks 0 hblanks, List.any_nil]

/-- Padding reaches the action clause only as blanks at its end. -/
theorem clause?_padded (hbefore : ∀ c ∈ before, isBlank c = true)
    (hafter : ∀ c ∈ after, isBlank c = true) (text : Text) (boundary : Keyword) :
    (clause? (before ++ text ++ after) boundary).map (List.filter Action.isSignificant) =
      (clause? text boundary).map (List.filter Action.isSignificant) := by
  obtain ⟨tail, htail, hclause⟩ := clause?_append
    (apart_of_blanks_right text hafter) (containsKeyword_blanks hafter .action)
    (containsKeyword_blanks hafter boundary)
  have hblanks : tail.filter Action.isSignificant = [] := by
    rcases htail with rfl | rfl
    · rfl
    · exact filter_isSignificant_blanks hafter
  rw [List.append_assoc, clause?_append_left hbefore, hclause, Option.map_map]
  congr 1
  funext clause
  rw [Function.comp_apply, List.filter_append, hblanks, List.append_nil]

theorem ofRule?_padded (hbefore : ∀ c ∈ before, isBlank c = true)
    (hafter : ∀ c ∈ after, isBlank c = true) (text : Text) (direction : Direction)
    (boundary : Keyword) :
    ofRule? (before ++ text ++ after) direction boundary = ofRule? text direction boundary := by
  have hfiltered (rule : Text) : ofRule? rule direction boundary =
      ((clause? rule boundary).map (List.filter Action.isSignificant)).map fun clause =>
        ⟨direction, Action.ofStatements 0 (splitOn ';' clause)⟩ := by
    rw [ofRule?, Option.map_map]
    congr 1
    funext clause
    rw [Function.comp_apply, Action.ofStatements_splitOn_filter]
  rw [hfiltered, hfiltered, clause?_padded hbefore hafter]

end ActionList

/-! ### The address family -/

namespace AddressFamily

variable {before after : Text}

/-- The text ends in the token that stands where a family is named, so no rule follows the token. -/
def EndsInFamily (text : Text) : Prop :=
  ∃ token, afterKeyword? text = some token ∧ token ≠ [] ∧ afterGluedIpv6? token = none ∧
    ∀ c ∈ token, isBlank c = false

theorem afterKeyword?_of_blank {c : Char} (hc : isBlank c = true) (text : Text) :
    afterKeyword? (c :: text) = none := by
  have hne : c.toUpper ≠ 'A'.toUpper := by
    rw [toUpper_of_isBlank hc]
    rintro rfl
    exact absurd hc (by decide)
  have hnone : dropHead? Keyword.afi.name (c :: text) = none := dropHead?_cons_of_ne hne _ text
  rw [afterKeyword?, hnone]

theorem trimStart_append_blanks (hafter : ∀ c ∈ after, isBlank c = true) (text : Text) :
    trimStart (text ++ after) = if trimStart text = [] then [] else trimStart text ++ after := by
  rw [trimStart, List.dropWhile_append, List.dropWhile_eq_nil_iff.2 hafter, trimStart]
  simp only [List.isEmpty_iff]

theorem afterKeyword?_append_blanks (hafter : ∀ c ∈ after, isBlank c = true) {text rest : Text}
    (hrest : afterKeyword? text = some rest) :
    afterKeyword? (text ++ after) = some (if rest = [] then [] else rest ++ after) := by
  unfold afterKeyword? at hrest ⊢
  rw [dropHead?_append_of_head? (fun _ => toUpper_not_mem_of_blanks (by decide) hafter)]
  split at hrest
  next c tail hdrop =>
    split at hrest
    next hblank =>
      rw [hdrop, Option.map_some, List.cons_append]
      simp only [hblank, if_true]
      rw [← List.cons_append, trimStart_append_blanks hafter, ← Option.some.inj hrest]
    next => simp at hrest
  next => simp at hrest

/-- Blanks can complete `AFI` only to a rule that ends there. -/
theorem afterKeyword?_append_of_none (hafter : ∀ c ∈ after, isBlank c = true) {text : Text}
    (hnone : afterKeyword? text = none) :
    afterKeyword? (text ++ after) = none ∨ afterKeyword? (text ++ after) = some [] := by
  unfold afterKeyword? at hnone ⊢
  rw [dropHead?_append_of_head? (fun _ => toUpper_not_mem_of_blanks (by decide) hafter)]
  cases hdrop : dropHead? Keyword.afi.name text with
  | none => exact .inl rfl
  | some rest =>
    rw [hdrop] at hnone
    cases rest with
    | nil =>
      rw [Option.map_some, List.nil_append]
      cases after with
      | nil => exact .inl rfl
      | cons c after =>
        have hnil : trimStart (c :: after) = [] := List.dropWhile_eq_nil_iff.2 hafter
        right
        simp only [hafter c List.mem_cons_self, if_true, hnil]
    | cons c rest =>
      have hblank : ¬isBlank c = true := by
        intro hblank
        simp [hblank] at hnone
      rw [Option.map_some, List.cons_append]
      simp only [hblank]
      exact .inl rfl

theorem resolve_of_nil {text : Text} (hnil : afterKeyword? text = some []) :
    resolve text = (any, text) := by
  have hglued : afterGluedIpv6? [] = none := by decide
  simp only [resolve, hnil, hglued, List.dropWhile_nil]

/-- Blanks behind a rule change neither its family nor, but for blanks, what is left of it. -/
theorem resolve_append_blanks {text : Text} (hafter : ∀ c ∈ after, isBlank c = true)
    (hend : after ≠ [] → ¬EndsInFamily text) :
    ∃ family body more, (∀ c ∈ more, isBlank c = true) ∧ resolve text = (family, body) ∧
      resolve (text ++ after) = (family, body ++ more) := by
  cases hkeyword : afterKeyword? text with
  | none =>
    refine ⟨any, text, after, hafter, resolve_of_none hkeyword, ?_⟩
    rcases afterKeyword?_append_of_none hafter hkeyword with hnone | hnil
    · exact resolve_of_none hnone
    · exact resolve_of_nil hnil
  | some rest =>
    have hpadded := afterKeyword?_append_blanks hafter hkeyword
    by_cases hrest : rest = []
    · subst hrest
      exact ⟨any, text, after, hafter, resolve_of_nil hkeyword, resolve_of_nil hpadded⟩
    rw [if_neg hrest] at hpadded
    have hglued := afterGluedIpv6?_append (fun _ => toUpper_not_mem_of_blanks (by decide) hafter)
      (fun _ => toUpper_not_mem_of_blanks (by decide) hafter) rest
    cases hgluedRest : afterGluedIpv6? rest with
    | some remainder =>
      rw [hgluedRest, Option.map_some] at hglued
      refine ⟨ipv6Unicast, remainder, after, hafter, ?_, ?_⟩
      · simp only [resolve, hkeyword, hgluedRest]
      · simp only [resolve, hpadded, hglued]
    | none =>
      rw [hgluedRest, Option.map_none] at hglued
      by_cases hafter_ne : after = []
      · subst hafter_ne
        refine ⟨(resolve text).1, (resolve text).2, [], hafter, rfl, ?_⟩
        rw [List.append_nil, List.append_nil]
      -- the token ends in front of a blank of the rule itself
      obtain ⟨c, hc, hblank⟩ : ∃ c ∈ rest, isBlank c = true := by
        by_contra hnot
        refine hend hafter_ne ⟨rest, hkeyword, hrest, hgluedRest, ?_⟩
        intro c hc
        by_contra hblank
        exact hnot ⟨c, hc, Bool.of_not_eq_false hblank⟩
      have hdrop_ne : rest.dropWhile (!isBlank ·) ≠ [] := by
        intro hnil
        have hword := List.dropWhile_eq_nil_iff.1 hnil c hc
        simp [hblank] at hword
      obtain ⟨d, remainder, hdrop⟩ := List.exists_cons_of_ne_nil hdrop_ne
      obtain ⟨htakePadded, hdropPadded⟩ := span_append_of_ne hdrop_ne after
      rw [hdrop, List.cons_append] at hdropPadded
      refine ⟨ofToken (rest.takeWhile (!isBlank ·)), trimStart remainder,
        if trimStart remainder = [] then [] else after, ?_, ?_, ?_⟩
      · split
        · simp
        · exact hafter
      · simp only [resolve, hkeyword, hgluedRest, hdrop]
      · simp only [resolve, hpadded, hglued, hdropPadded, htakePadded]
        rw [trimStart_append_blanks hafter]
        split
        next hnil => rw [hnil, List.append_nil]
        next => rfl

end AddressFamily

end RoutingPolicy
