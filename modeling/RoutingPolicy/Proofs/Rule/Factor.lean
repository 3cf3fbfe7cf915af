import RoutingPolicy.Proofs.Rule.Parts
import RoutingPolicy.Rule.Factor

/-!
# Reading factors written in parts

A form reads the subject behind its leading keyword and takes as filter whatever follows the last
boundary keyword, however many of them there are.
-/

namespace RoutingPolicy

open Text

namespace Factor

/-! ### The text that has to fit a form -/

theorem dropSemicolon_of_getLast? {text : Text} (hlast : text.getLast? ≠ some ';') :
    dropSemicolon text = text :=
  if_neg hlast

/-- A semicolon behind the last part is dropped. -/
theorem dropSemicolon_spaced {parts : List Text} {part : Text}
    (hparts : ∀ other ∈ parts ++ [part], Solid other) :
    dropSemicolon (spaced (parts ++ [part ++ [';']])) = spaced (parts ++ [part]) := by
  have hsolid : Solid (spaced (parts ++ [part])) := solid_spaced hparts (by simp)
  rw [spaced_append_singleton, ← List.append_assoc, ← spaced_append_singleton, dropSemicolon,
    if_pos List.getLast?_concat, List.dropLast_concat, trimEnd_of_getLast? hsolid.trimmed.2]

theorem trim_factor_append {factor filterClause : List Text}
    (hfactor : ∀ part ∈ factor, Solid part) (hclause : ∀ part ∈ filterClause, Solid part)
    (hfactor_ne : factor ≠ []) (hclause_ne : filterClause ≠ []) :
    trim (spaced factor ++ [' '] ++ spaced filterClause) = spaced (factor ++ filterClause) := by
  rw [← spaced_append_of_ne_nil _ _ hfactor_ne hclause_ne,
    trim_spaced (List.forall_mem_append.2 ⟨hfactor, hclause⟩)]

theorem joined_spaced {factor : List Text} (boundary : Keyword) {filter : Text}
    (hfactor : ∀ part ∈ factor, Solid part) (hne : factor ≠ []) (hfilter : Solid filter)
    (hlast : filter.getLast? ≠ some ';') :
    joined (spaced factor) (spaced [boundary.name, filter]) =
      spaced (factor ++ boundary.name :: [filter]) := by
  have hclause : ∀ part ∈ [boundary.name, filter], Solid part :=
    List.forall_mem_cons.2 ⟨solid_name boundary, List.forall_mem_singleton.2 hfilter⟩
  have hend : (spaced (factor ++ [boundary.name, filter])).getLast? = filter.getLast? := by
    rw [List.append_cons, spaced_append_singleton, List.getLast?_append_of_ne_nil _ hfilter.ne_nil]
  rw [joined, trim_factor_append hfactor hclause hne (List.cons_ne_nil _ _)]
  exact dropSemicolon_of_getLast? (hend ▸ hlast)

/-! ### Single forms -/

/-- What the tokens of a rule are that begins with a keyword and a subject. -/
theorem tokenize_leading_cons_cons {subject : Text} (lead : Keyword) (hsubject : PlainWord subject)
    (parts : List Text) : ∃ start rest, tokenize (leading (lead.name :: subject :: parts)) =
      ⟨lead.name, 0⟩ :: ⟨subject, start⟩ :: rest := by
  rw [tokenize, scan_leading_cons 0 (.inl (isWord_name lead)), scan_cons_space,
    scan_leading_cons _ (.inl hsubject.isWord)]
  exact ⟨_, _, rfl⟩

variable {form : Form} {subject : Text} {after : List Text}

/-- The tokens of a rule that is cut at a boundary keyword behind keyword and subject. -/
theorem tokenize_spaced_boundary (lead boundary : Keyword) (hsubject : PlainWord subject)
    (middle after : List Text) : ∃ start tokens,
      tokenize (spaced (lead.name :: subject :: (middle ++ boundary.name :: after))) =
        ⟨lead.name, 0⟩ :: ⟨subject, start⟩ :: (tokens ++
          ⟨boundary.name, byteSize (leading (lead.name :: subject :: middle))⟩ ::
            Token.scan (byteSize (leading (lead.name :: subject :: middle) ++ boundary.name))
              (trailing after)) := by
  obtain ⟨start, rest, htokens⟩ := tokenize_leading_cons_cons lead hsubject middle
  have hcut := cut_trailing (.inl (isWord_name boundary)) (lead.name :: subject :: middle) after
  refine ⟨start, rest, ?_⟩
  rw [← List.cons_append, ← List.cons_append, spaced_append_cons, hcut.tokenize_eq, htokens]
  rfl

/-- A form takes the filter from behind the last boundary keyword. -/
theorem read?_spaced (middle : List Text) (hsubject : PlainWord subject) (hne : after ≠ [])
    (hsolid : ∀ part ∈ after, Solid part) (hafter : Without form.boundary after) :
    form.read? (spaced (form.lead.name :: subject :: (middle ++ form.boundary.name :: after)))
        (tokenize (spaced (form.lead.name :: subject :: (middle ++ form.boundary.name :: after)))) =
      some ⟨subject, spaced after⟩ := by
  obtain ⟨start, tokens, htokens⟩ :=
    tokenize_spaced_boundary form.lead form.boundary hsubject middle after
  have hword : Token.kind ⟨subject, start⟩ = .word := hsubject.kind_eq
  have hlater : ∀ (start : Nat), ∀ token ∈ (Token.scan start (trailing after)).dropLast,
      token.isKeyword form.boundary = false := by
    intro start token htoken
    exact isKeyword_of_mem_scan (containsKeyword_trailing hafter) (List.dropLast_subset _ htoken)
  rw [htokens, Form.read?, if_pos (by simp [Token.isKeyword_name, hword]), if_neg (by simp),
    List.dropLast_append_of_ne_nil (List.cons_ne_nil _ _),
    List.dropLast_cons_of_ne_nil (scan_trailing_ne_nil _ hsolid hne),
    Token.last?_append_cons (Token.isKeyword_name _ _) (hlater _)]
  simp only
  rw [← List.cons_append, ← List.cons_append, spaced_append_cons, dropBytes_cut,
    trim_trailing hsolid]

/-! ### All forms -/

theorem read?_eq_none_of_lead {lead : Keyword} (hlead : lead ≠ form.lead) (parts : List Text) :
    form.read? (spaced (lead.name :: parts)) (tokenize (spaced (lead.name :: parts))) = none := by
  have hother : Token.isKeyword form.lead ⟨lead.name, 0⟩ = false := by
    simpa [Token.isKeyword, Token.kind] using hlead
  rw [tokenize_spaced_cons (.inl (isWord_name lead))]
  unfold Form.read?
  split
  next heq =>
    obtain ⟨rfl, -⟩ := List.cons.inj heq
    rw [if_neg (by simp [hother])]
  next => rfl

theorem read?_eq_none_of_boundary (lead : Keyword) (htail : form.openTail = false)
    (hsubject : PlainWord subject) {parts : List Text} (hsolid : ∀ part ∈ parts, Solid part)
    (hne : parts ≠ []) (hparts : Without form.boundary parts) :
    form.read? (spaced (lead.name :: subject :: parts))
      (tokenize (spaced (lead.name :: subject :: parts))) = none := by
  obtain ⟨start, next, htokens⟩ : ∃ start next,
      tokenize (spaced (lead.name :: subject :: parts)) =
        ⟨lead.name, 0⟩ :: ⟨subject, start⟩ :: Token.scan next (trailing parts) := by
    rw [tokenize_spaced_cons (.inl (isWord_name lead)), trailing_cons_eq, scan_cons_space,
      spaced_cons, Token.scan_append _ (apart_trailing subject parts),
      Token.scan_lexeme _ (.inl hsubject.isWord)]
    exact ⟨_, _, rfl⟩
  have hnone : ∀ start, Token.last? form.boundary
      (Token.scan start (trailing parts)).dropLast = none := by
    intro start
    have hnil : (Token.scan start (trailing parts)).dropLast.filter
        (Token.isKeyword form.boundary) = [] :=
      List.filter_eq_nil_iff.2 fun token htoken => by
        simp [isKeyword_of_mem_scan (containsKeyword_trailing hparts)
          (List.dropLast_subset _ htoken)]
    rw [Token.last?, hnil, List.getLast?_nil]
  rw [htokens, Form.read?, if_neg (scan_trailing_ne_nil _ hsolid hne), hnone]
  simp [htail]

/-- Subject and filter of a rule of which factor and filter clause are joined in parts. A form that
is tried earlier does not fit because of its leading or its boundary keyword. -/
theorem read_of_joined {factor filterClause : Text} {middle : List Text} (hform : form ∈ forms)
    (hjoined : joined factor filterClause =
      spaced (form.lead.name :: subject :: (middle ++ form.boundary.name :: after)))
    (hsubject : PlainWord subject) (hmiddle : ∀ part ∈ middle, Solid part)
    (hsolid : ∀ part ∈ after, Solid part) (hne : after ≠ [])
    (hafter : Without form.boundary after)
    (hdefault : form = .default → Without .announce (middle ++ after)) :
    read factor filterClause = .ok ⟨subject, spaced after⟩ := by
  have hread := read?_spaced middle hsubject hne hsolid hafter
  rw [read, hjoined]
  simp only [forms, List.mem_cons, List.not_mem_nil, or_false] at hform
  rcases hform with rfl | rfl | rfl
  · simp only [forms, List.findSome?_cons, hread]
  · have himport := read?_eq_none_of_lead (by decide : Keyword.toPeer ≠ Form.importing.lead)
      (subject :: (middle ++ Keyword.announce.name :: after))
    simp only [Form.exporting] at hread ⊢
    simp only [forms, List.findSome?_cons, himport, Form.exporting, hread]
  · have himport := read?_eq_none_of_lead (by decide : Keyword.toPeer ≠ Form.importing.lead)
      (subject :: (middle ++ Keyword.networks.name :: after))
    obtain ⟨hmiddle', hafter'⟩ := List.forall_mem_append.1 (hdefault rfl)
    have hexport := read?_eq_none_of_boundary .toPeer
      (rfl : Form.exporting.openTail = false) hsubject
      (List.forall_mem_append.2 ⟨hmiddle, List.forall_mem_cons.2 ⟨solid_name .networks, hsolid⟩⟩)
      (List.append_ne_nil_of_right_ne_nil _ (List.cons_ne_nil _ _))
      (Without.append hmiddle' (Without.cons (containsKeyword_name (by decide)) hafter'))
    simp only [Form.default] at hread ⊢
    simp only [forms, List.findSome?_cons, himport, hexport, Form.default, hread]

end Factor

end RoutingPolicy
