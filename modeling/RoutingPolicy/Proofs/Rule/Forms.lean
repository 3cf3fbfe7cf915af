import RoutingPolicy.Proofs.Rule.Nesting
import RoutingPolicy.Proofs.Rule.Parts
import RoutingPolicy.Rule.Factor

/-!
# What the forms accept

Factor and filter clause of a rule are read by three forms, one after the other. Together they accept a
simple language: a lead, a subject and, behind an import, nothing or an `ACCEPT` that has something
behind it. The filter is what stands behind the last boundary keyword that is not the last token. A
boundary keyword at the very end introduces nothing, so it is left in the filter.
-/

namespace RoutingPolicy

open Text

/-- A keyword stands among tokens with something behind it. -/
def Inside (keyword : Keyword) (tokens : List Text) : Prop :=
  ∃ word ∈ tokens.dropLast, Keyword.ofWord? word = some keyword

instance (keyword : Keyword) (tokens : List Text) : Decidable (Inside keyword tokens) :=
  inferInstanceAs (Decidable (∃ word ∈ tokens.dropLast, _))

theorem inside_append_cons {keyword : Keyword} {word : Text} {earlier later : List Text}
    (hword : Keyword.ofWord? word = some keyword) (hlater : later ≠ []) :
    Inside keyword (earlier ++ word :: later) := by
  refine ⟨word, ?_, hword⟩
  rw [List.dropLast_append_of_ne_nil (List.cons_ne_nil word later),
    List.dropLast_cons_of_ne_nil hlater]
  exact List.mem_append_right earlier List.mem_cons_self

theorem Inside.append_left {keyword : Keyword} {later : List Text} (hinside : Inside keyword later)
    (earlier : List Text) : Inside keyword (earlier ++ later) := by
  obtain ⟨word, hmem, hword⟩ := hinside
  have hne : later ≠ [] := by
    rintro rfl
    exact List.not_mem_nil hmem
  refine ⟨word, ?_, hword⟩
  rw [List.dropLast_append_of_ne_nil hne]
  exact List.mem_append_right earlier hmem

theorem exists_cons_cons_of_two_le {α : Type} {items : List α} (hlength : 2 ≤ items.length) :
    ∃ first second rest, items = first :: second :: rest := by
  obtain ⟨first, tail, rfl⟩ := List.exists_cons_of_length_pos (Nat.lt_of_succ_lt hlength)
  obtain ⟨second, rest, rfl⟩ := List.exists_cons_of_length_pos (Nat.lt_of_succ_lt_succ hlength)
  exact ⟨first, second, rest, rfl⟩

theorem exists_tokens_of_lexemes_eq {text lead subject : Text} {tail : List Text}
    (hlexemes : lexemes text = lead :: subject :: tail) : ∃ first second rest,
      tokenize text = first :: second :: rest ∧ first.text = lead ∧ second.text = subject ∧
        rest.map Token.text = tail := by
  obtain ⟨first, tokens, htokens, hfirst, hrest⟩ := List.map_eq_cons_iff.1 hlexemes
  obtain ⟨second, rest, rfl, hsecond, htail⟩ := List.map_eq_cons_iff.1 hrest
  exact ⟨first, second, rest, htokens, hfirst, hsecond, htail⟩

theorem lexemes_anyFilter : lexemes anyFilter = [anyFilter] :=
  lexemes_of_isLexeme (.inl (by decide))

namespace Factor

/-! ### The filter -/

/-- The filter of a text with lead and subject stands behind the last boundary keyword that has
something behind it. -/
inductive FilterBehind (boundary : Keyword) (text : Text) : Text → Prop
  | cut {before word after : Text} (hcut : CutAt boundary text before word after)
      (hbefore : 2 ≤ (lexemes before).length) (hafter : lexemes after ≠ [])
      (hlast : ¬Inside boundary (lexemes after)) : FilterBehind boundary text (trim after)

section Filter

variable {boundary : Keyword} {text filter lead subject : Text} {tail : List Text}

theorem FilterBehind.not_inside (hfilter : FilterBehind boundary text filter) :
    ¬Inside boundary (lexemes filter) := by
  cases hfilter with
  | cut hcut hbefore hafter hlast => rwa [lexemes_trim]

theorem FilterBehind.exists_append (hfilter : FilterBehind boundary text filter)
    (hlexemes : lexemes text = lead :: subject :: tail) : ∃ passed word,
      Keyword.ofWord? word = some boundary ∧ tail = passed ++ word :: lexemes filter ∧
        lexemes filter ≠ [] := by
  cases hfilter with
  | @cut before word after hcut hbefore hafter hlast =>
    rw [hcut.eq_append, hcut.cut.lexemes_eq] at hlexemes
    rw [lexemes_trim]
    obtain ⟨first, second, passed, hpassed⟩ := exists_cons_cons_of_two_le hbefore
    rw [hpassed, List.cons_append, List.cons_append] at hlexemes
    obtain ⟨-, htail⟩ := List.cons.inj (List.cons.inj hlexemes).2
    exact ⟨passed, word, hcut.ofWord?, htail.symm, hafter⟩

theorem FilterBehind.inside (hfilter : FilterBehind boundary text filter)
    (hlexemes : lexemes text = lead :: subject :: tail) : Inside boundary tail := by
  obtain ⟨passed, word, hword, rfl, hne⟩ := hfilter.exists_append hlexemes
  exact inside_append_cons hword hne

theorem exists_filterBehind (hlexemes : lexemes text = lead :: subject :: tail)
    (hinside : Inside boundary tail) : ∃ filter, FilterBehind boundary text filter := by
  have hne : tail ≠ [] := by
    rintro rfl
    simp [Inside] at hinside
  obtain ⟨earlier, word, later, hfront, hword, hlater⟩ := exists_append_of_last hinside
  have htail : tail = earlier ++ word :: (later ++ [tail.getLast hne]) := by
    rw [← List.cons_append, ← List.append_assoc, ← hfront, List.dropLast_append_getLast]
  have hdivision : lexemes text =
      (lead :: subject :: earlier) ++ word :: (later ++ [tail.getLast hne]) := by
    rw [hlexemes, List.cons_append, List.cons_append, ← htail]
  obtain ⟨before, after, hcut, htext, hbefore, hafter⟩ := exists_cut_of_lexemes_eq hdivision
  refine ⟨trim after, .cut ⟨hcut, htext, hword⟩ ?_ ?_ ?_⟩
  · simp [hbefore]
  · simp [hafter]
  · rintro ⟨other, hmem, hother⟩
    rw [hafter, List.dropLast_concat] at hmem
    exact hlater other hmem hother

theorem FilterBehind.exists_last? (hfilter : FilterBehind boundary text filter)
    {first second : Token} {rest : List Token} (htokens : tokenize text = first :: second :: rest) :
    ∃ token, Token.last? boundary rest.dropLast = some token ∧
      trim (dropBytes token.stop text) = filter := by
  cases hfilter with
  | @cut before word after hcut hbefore hafter hlast =>
    rw [hcut.eq_append] at htokens ⊢
    rw [hcut.cut.tokenize_eq] at htokens
    generalize hscan : Token.scan (byteSize (before ++ word)) after = later at htokens
    have hlater : later.map Token.text = lexemes after := by
      rw [← hscan, map_text_scan_eq_lexemes]
    have hne : later ≠ [] := by
      rintro rfl
      exact hafter hlater.symm
    refine ⟨⟨word, byteSize before⟩, ?_, by rw [dropBytes_cut]⟩
    rw [lexemes, List.length_map] at hbefore
    obtain ⟨token, next, passed, hpassed⟩ := exists_cons_cons_of_two_le hbefore
    rw [hpassed, List.cons_append, List.cons_append] at htokens
    obtain ⟨-, rfl⟩ := List.cons.inj (List.cons.inj htokens).2
    rw [List.dropLast_append_of_ne_nil (List.cons_ne_nil _ _), List.dropLast_cons_of_ne_nil hne]
    refine Token.last?_append_cons (by simp [Token.isKeyword, Token.kind, hcut.kind_eq]) ?_
    intro other hmem
    by_contra hkeyword
    rw [Bool.not_eq_false, Token.isKeyword, beq_iff_eq, Token.kind,
      Token.Kind.ofText_eq_keyword_iff] at hkeyword
    refine hlast ⟨other.text, ?_, hkeyword⟩
    rw [← hlater, ← List.map_dropLast]
    exact List.mem_map_of_mem hmem

theorem last?_eq_none_of_not_inside {tokens : List Token}
    (hnone : ¬Inside boundary (tokens.map Token.text)) :
    Token.last? boundary tokens.dropLast = none := by
  by_contra hsome
  obtain ⟨token, htoken⟩ := Option.ne_none_iff_exists'.1 hsome
  refine hnone ⟨token.text, ?_, Token.Kind.ofText_eq_keyword_iff.1 (Token.kind_of_last? htoken)⟩
  rw [← List.map_dropLast]
  exact List.mem_map_of_mem (Token.mem_of_last? htoken)

theorem FilterBehind.solid (hfilter : FilterBehind boundary text filter) : Solid filter := by
  cases hfilter with
  | @cut before word after hcut hbefore hafter hlast =>
    obtain ⟨c, hmem, hc⟩ := exists_not_blank_of_lexemes_ne_nil hafter
    exact ⟨trim_ne_nil hmem hc, trimmed_trim after⟩

end Filter

/-! ### Single forms -/

/-- A text has the shape of a form: nothing behind the subject, a filter, or something without a filter
if the form allows that. -/
inductive Form.Reads (form : Form) (text : Text) : Factor → Prop
  | alone {lead subject : Text} (hlexemes : lexemes text = [lead, subject])
      (hlead : Keyword.ofWord? lead = some form.lead) (hsubject : PlainWord subject) :
      form.Reads text (any subject)
  | filtered {lead subject filter : Text} {tail : List Text}
      (hlexemes : lexemes text = lead :: subject :: tail)
      (hlead : Keyword.ofWord? lead = some form.lead) (hsubject : PlainWord subject)
      (hfilter : FilterBehind form.boundary text filter) : form.Reads text ⟨subject, filter⟩
  | openTail {lead subject : Text} {tail : List Text}
      (hlexemes : lexemes text = lead :: subject :: tail)
      (hlead : Keyword.ofWord? lead = some form.lead) (hsubject : PlainWord subject)
      (hne : tail ≠ []) (hnone : ¬Inside form.boundary tail) (hopen : form.openTail = true) :
      form.Reads text (any subject)

section Form

variable {form : Form} {text : Text} {result : Factor}

theorem Form.read?_eq {first second : Token} {rest : List Token}
    (htokens : tokenize text = first :: second :: rest)
    (hlead : Keyword.ofWord? first.text = some form.lead) (hsubject : PlainWord second.text) :
    form.read? text (tokenize text) =
      if rest = [] then some (any second.text)
      else match Token.last? form.boundary rest.dropLast with
        | some token => some ⟨second.text, trim (dropBytes token.stop text)⟩
        | none => if form.openTail then some (any second.text) else none := by
  have hfirst : first.isKeyword form.lead = true :=
    beq_iff_eq.2 (Token.Kind.ofText_eq_keyword_iff.2 hlead)
  have hsecond : second.kind = .word := hsubject.kind_eq
  have hfits : (first.isKeyword form.lead && second.kind == .word) = true := by
    simp [hfirst, hsecond]
  rw [htokens]
  exact if_pos hfits

theorem Form.read?_of_reads (hreads : form.Reads text result) :
    form.read? text (tokenize text) = some result := by
  cases hreads with
  | alone hlexemes hlead hsubject =>
    obtain ⟨first, second, rest, htokens, rfl, rfl, hrest⟩ := exists_tokens_of_lexemes_eq hlexemes
    rw [Form.read?_eq htokens hlead hsubject, if_pos (List.map_eq_nil_iff.1 hrest)]
  | filtered hlexemes hlead hsubject hfilter =>
    obtain ⟨passed, word, hword, htail, hne⟩ := hfilter.exists_append hlexemes
    obtain ⟨first, second, rest, htokens, rfl, rfl, hrest⟩ := exists_tokens_of_lexemes_eq hlexemes
    obtain ⟨token, hlast, rfl⟩ := hfilter.exists_last? htokens
    have hrest_ne : rest ≠ [] := by
      rintro rfl
      simp [← hrest] at htail
    rw [Form.read?_eq htokens hlead hsubject, if_neg hrest_ne, hlast]
  | openTail hlexemes hlead hsubject hne hnone hopen =>
    obtain ⟨first, second, rest, htokens, rfl, rfl, rfl⟩ := exists_tokens_of_lexemes_eq hlexemes
    rw [Form.read?_eq htokens hlead hsubject, if_neg (mt List.map_eq_nil_iff.2 hne),
      last?_eq_none_of_not_inside hnone]
    simp only [hopen, if_true]

theorem Form.reads_of_read? (hread : form.read? text (tokenize text) = some result) :
    form.Reads text result := by
  generalize htokens : tokenize text = tokens at hread
  match tokens with
  | [] => simp [Form.read?] at hread
  | [token] => simp [Form.read?] at hread
  | first :: second :: rest =>
    have hlexemes : lexemes text = first.text :: second.text :: rest.map Token.text := by
      rw [lexemes, htokens, List.map_cons, List.map_cons]
    by_cases hfits : (first.isKeyword form.lead && second.kind == .word) = true
    · obtain ⟨hfirst, hsecond⟩ := Bool.and_eq_true_iff.1 hfits
      have hlead : Keyword.ofWord? first.text = some form.lead :=
        Token.Kind.ofText_eq_keyword_iff.1 (beq_iff_eq.1 hfirst)
      have hmem : second.text ∈ lexemes text := by simp [hlexemes]
      have hsubject : PlainWord second.text :=
        (isLexeme_of_mem_lexemes hmem).plainWord (beq_iff_eq.1 hsecond)
      rw [← htokens, Form.read?_eq htokens hlead hsubject] at hread
      by_cases hrest : rest = []
      · rw [if_pos hrest] at hread
        rw [hrest, List.map_nil] at hlexemes
        rw [← Option.some.inj hread]
        exact .alone hlexemes hlead hsubject
      rw [if_neg hrest] at hread
      by_cases hinside : Inside form.boundary (rest.map Token.text)
      · obtain ⟨filter, hfilter⟩ := exists_filterBehind hlexemes hinside
        obtain ⟨token, hlast, hbehind⟩ := hfilter.exists_last? htokens
        rw [hlast] at hread
        rw [← Option.some.inj hread, hbehind]
        exact .filtered hlexemes hlead hsubject hfilter
      · rw [last?_eq_none_of_not_inside hinside] at hread
        change (if form.openTail then some (any second.text) else none) = some result at hread
        rw [Option.ite_none_right_eq_some] at hread
        rw [← Option.some.inj hread.2]
        exact .openTail hlexemes hlead hsubject (mt List.map_eq_nil_iff.1 hrest) hinside hread.1
    · rw [Form.read?, if_neg hfits] at hread
      simp at hread

theorem Form.Reads.ofWord?_lead (hreads : form.Reads text result) {lead : Text} {tail : List Text}
    (hlexemes : lexemes text = lead :: tail) : Keyword.ofWord? lead = some form.lead := by
  cases hreads with
  | alone hother hlead _ | filtered hother hlead _ _ | openTail hother hlead _ _ _ _ =>
    obtain ⟨rfl, -⟩ := List.cons.inj (hlexemes.symm.trans hother)
    exact hlead

/-- A form with another lead does not read a text. -/
theorem Form.read?_eq_none_of_ofWord? {keyword : Keyword} {lead : Text} {tail : List Text}
    (hlexemes : lexemes text = lead :: tail) (hlead : Keyword.ofWord? lead = some keyword)
    (hne : keyword ≠ form.lead) : form.read? text (tokenize text) = none := by
  by_contra hsome
  obtain ⟨result, hresult⟩ := Option.ne_none_iff_exists'.1 hsome
  have hother := (Form.reads_of_read? hresult).ofWord?_lead hlexemes
  exact hne (Option.some.inj (hlead.symm.trans hother))

/-- A form that needs its boundary keyword does not read a text without it. -/
theorem Form.read?_eq_none_of_not_inside {lead subject : Text} {tail : List Text}
    (hlexemes : lexemes text = lead :: subject :: tail) (hne : tail ≠ [])
    (hnone : ¬Inside form.boundary tail) (hopen : form.openTail = false) :
    form.read? text (tokenize text) = none := by
  by_contra hsome
  obtain ⟨result, hresult⟩ := Option.ne_none_iff_exists'.1 hsome
  cases Form.reads_of_read? hresult with
  | alone hother _ _ =>
    rw [hother] at hlexemes
    exact hne (List.cons.inj (List.cons.inj hlexemes).2).2.symm
  | filtered _ _ _ hfilter => exact hnone (hfilter.inside hlexemes)
  | openTail _ _ _ _ _ htrue => simp [hopen] at htrue

end Form

/-! ### All forms -/

/-- What factor and filter clause in one text are read as. -/
inductive Reads (text : Text) : Factor → Prop
  | alone {lead subject : Text} (hlexemes : lexemes text = [lead, subject])
      (hlead : Keyword.ofWord? lead = some .fromPeer ∨ Keyword.ofWord? lead = some .toPeer)
      (hsubject : PlainWord subject) : Reads text (any subject)
  | accept {lead subject filter : Text} {tail : List Text}
      (hlexemes : lexemes text = lead :: subject :: tail)
      (hlead : Keyword.ofWord? lead = some .fromPeer) (hsubject : PlainWord subject)
      (hfilter : FilterBehind .accept text filter) : Reads text ⟨subject, filter⟩
  | announce {lead subject filter : Text} {tail : List Text}
      (hlexemes : lexemes text = lead :: subject :: tail)
      (hlead : Keyword.ofWord? lead = some .toPeer) (hsubject : PlainWord subject)
      (hfilter : FilterBehind .announce text filter) : Reads text ⟨subject, filter⟩
  | networks {lead subject filter : Text} {tail : List Text}
      (hlexemes : lexemes text = lead :: subject :: tail)
      (hlead : Keyword.ofWord? lead = some .toPeer) (hsubject : PlainWord subject)
      (hannounce : ¬Inside .announce tail) (hfilter : FilterBehind .networks text filter) :
      Reads text ⟨subject, filter⟩
  | unfiltered {lead subject : Text} {tail : List Text}
      (hlexemes : lexemes text = lead :: subject :: tail)
      (hlead : Keyword.ofWord? lead = some .toPeer) (hsubject : PlainWord subject)
      (hne : tail ≠ []) (hannounce : ¬Inside .announce tail) (hnetworks : ¬Inside .networks tail) :
      Reads text (any subject)

/-- The tokens of a text that can be read. -/
def Fits : List Text → Prop
  | lead :: subject :: tail =>
    PlainWord subject ∧ (Keyword.ofWord? lead = some .toPeer ∨
      Keyword.ofWord? lead = some .fromPeer ∧ (tail = [] ∨ Inside .accept tail))
  | _ => False

section Reads

variable {text : Text} {result : Factor}

theorem findSome?_forms (text : Text) (tokens : List Token) :
    forms.findSome? (fun form => form.read? text tokens) =
      (Form.importing.read? text tokens).or
        ((Form.exporting.read? text tokens).or (Form.default.read? text tokens)) := by
  simp only [forms, List.findSome?_cons, List.findSome?_nil]
  cases Form.importing.read? text tokens with
  | some result => rfl
  | none =>
    cases Form.exporting.read? text tokens with
    | some result => rfl
    | none => cases Form.default.read? text tokens <;> rfl

theorem findSome?_of_reads (hreads : Reads text result) :
    forms.findSome? (fun form => form.read? text (tokenize text)) = some result := by
  have himporting : Keyword.toPeer ≠ Form.importing.lead := by decide
  rw [findSome?_forms]
  cases hreads with
  | alone hlexemes hlead hsubject =>
    rcases hlead with hlead | hlead
    · have hform : Form.importing.Reads text _ := .alone hlexemes hlead hsubject
      rw [Form.read?_of_reads hform, Option.some_or]
    · have hform : Form.exporting.Reads text _ := .alone hlexemes hlead hsubject
      rw [Form.read?_eq_none_of_ofWord? hlexemes hlead himporting, Option.none_or,
        Form.read?_of_reads hform, Option.some_or]
  | accept hlexemes hlead hsubject hfilter =>
    have hform : Form.importing.Reads text _ := .filtered hlexemes hlead hsubject hfilter
    rw [Form.read?_of_reads hform, Option.some_or]
  | announce hlexemes hlead hsubject hfilter =>
    have hform : Form.exporting.Reads text _ := .filtered hlexemes hlead hsubject hfilter
    rw [Form.read?_eq_none_of_ofWord? hlexemes hlead himporting, Option.none_or,
      Form.read?_of_reads hform, Option.some_or]
  | @networks lead subject filter tail hlexemes hlead hsubject hannounce hfilter =>
    have hne : tail ≠ [] := by
      obtain ⟨passed, word, -, rfl, -⟩ := hfilter.exists_append hlexemes
      simp
    have hexporting : Form.exporting.read? text (tokenize text) = none :=
      Form.read?_eq_none_of_not_inside hlexemes hne hannounce rfl
    have hform : Form.default.Reads text _ := .filtered hlexemes hlead hsubject hfilter
    rw [Form.read?_eq_none_of_ofWord? hlexemes hlead himporting, Option.none_or, hexporting,
      Option.none_or, Form.read?_of_reads hform]
  | unfiltered hlexemes hlead hsubject hne hannounce hnetworks =>
    have hexporting : Form.exporting.read? text (tokenize text) = none :=
      Form.read?_eq_none_of_not_inside hlexemes hne hannounce rfl
    have hform : Form.default.Reads text _ :=
      .openTail hlexemes hlead hsubject hne hnetworks rfl
    rw [Form.read?_eq_none_of_ofWord? hlexemes hlead himporting, Option.none_or, hexporting,
      Option.none_or, Form.read?_of_reads hform]

theorem exists_reads_iff : (∃ result, Reads text result) ↔ Fits (lexemes text) := by
  constructor
  · rintro ⟨result, hreads⟩
    cases hreads with
    | alone hlexemes hlead hsubject =>
      rw [hlexemes]
      exact ⟨hsubject, hlead.elim (fun hlead => .inr ⟨hlead, .inl rfl⟩) .inl⟩
    | accept hlexemes hlead hsubject hfilter =>
      have hinside := hfilter.inside hlexemes
      rw [hlexemes]
      exact ⟨hsubject, .inr ⟨hlead, .inr hinside⟩⟩
    | announce hlexemes hlead hsubject _ | networks hlexemes hlead hsubject _ _
    | unfiltered hlexemes hlead hsubject _ _ _ =>
      rw [hlexemes]
      exact ⟨hsubject, .inl hlead⟩
  · intro hfits
    match hlexemes : lexemes text with
    | [] | [lead] => simp [hlexemes, Fits] at hfits
    | lead :: subject :: tail =>
      rw [hlexemes] at hfits
      obtain ⟨hsubject, hlead⟩ := hfits
      by_cases hne : tail = []
      · rw [hne] at hlexemes
        exact ⟨_, .alone hlexemes (hlead.symm.imp_left And.left) hsubject⟩
      rcases hlead with hlead | ⟨hlead, hinside⟩
      · by_cases hannounce : Inside .announce tail
        · obtain ⟨filter, hfilter⟩ := exists_filterBehind hlexemes hannounce
          exact ⟨_, .announce hlexemes hlead hsubject hfilter⟩
        by_cases hnetworks : Inside .networks tail
        · obtain ⟨filter, hfilter⟩ := exists_filterBehind hlexemes hnetworks
          exact ⟨_, .networks hlexemes hlead hsubject hannounce hfilter⟩
        · exact ⟨_, .unfiltered hlexemes hlead hsubject hne hannounce hnetworks⟩
      · obtain ⟨filter, hfilter⟩ := exists_filterBehind hlexemes (hinside.resolve_left hne)
        exact ⟨_, .accept hlexemes hlead hsubject hfilter⟩

theorem fits_of_form {form : Form} (hform : form ∈ forms) (hreads : form.Reads text result) :
    Fits (lexemes text) := by
  have hforms : ∀ form ∈ forms, form.lead = .toPeer ∨
      form.lead = .fromPeer ∧ form.boundary = .accept ∧ form.openTail = false := by decide
  cases hreads with
  | alone hlexemes hlead hsubject =>
    rw [hlexemes]
    rcases hforms form hform with hto | ⟨hfrom, -, -⟩
    · exact ⟨hsubject, .inl (hto ▸ hlead)⟩
    · exact ⟨hsubject, .inr ⟨hfrom ▸ hlead, .inl rfl⟩⟩
  | filtered hlexemes hlead hsubject hfilter =>
    have hinside := hfilter.inside hlexemes
    rw [hlexemes]
    rcases hforms form hform with hto | ⟨hfrom, haccept, -⟩
    · exact ⟨hsubject, .inl (hto ▸ hlead)⟩
    · exact ⟨hsubject, .inr ⟨hfrom ▸ hlead, .inr (haccept ▸ hinside)⟩⟩
  | openTail hlexemes hlead hsubject hne hnone hopen =>
    rw [hlexemes]
    rcases hforms form hform with hto | ⟨-, -, hclosed⟩
    · exact ⟨hsubject, .inl (hto ▸ hlead)⟩
    · simp [hopen] at hclosed

theorem findSome?_of_not_fits (hnot : ¬Fits (lexemes text)) :
    forms.findSome? (fun form => form.read? text (tokenize text)) = none := by
  rw [List.findSome?_eq_none_iff]
  intro form hform
  by_contra hsome
  obtain ⟨result, hresult⟩ := Option.ne_none_iff_exists'.1 hsome
  exact hnot (fits_of_form hform (Form.reads_of_read? hresult))

/-- Lead and subject of a text come first, and the boundary keyword of its form stands nowhere in the
filter but at the end. -/
theorem Reads.exists_tail (hreads : Reads text result) : ∃ lead tail,
    lexemes text = lead :: result.subject :: tail ∧ Solid result.filter ∧
      (Keyword.ofWord? lead = some .fromPeer → ¬Inside .accept (lexemes result.filter)) ∧
      (Keyword.ofWord? lead = some .toPeer → ¬Inside .announce (lexemes result.filter) ∧
        (¬Inside .announce tail → ¬Inside .networks (lexemes result.filter))) := by
  have hnone : ∀ keyword, ¬Inside keyword (lexemes anyFilter) := by
    intro keyword
    rw [lexemes_anyFilter]
    simp [Inside]
  have hsolid : Solid anyFilter := PlainWord.solid (by decide)
  cases hreads with
  | alone hlexemes _ _ | unfiltered hlexemes _ _ _ _ _ =>
    exact ⟨_, _, hlexemes, hsolid, fun _ => hnone _, fun _ => ⟨hnone _, fun _ => hnone _⟩⟩
  | accept hlexemes hlead hsubject hfilter =>
    refine ⟨_, _, hlexemes, hfilter.solid, fun _ => hfilter.not_inside, fun hother => ?_⟩
    simp [hlead] at hother
  | announce hlexemes hlead hsubject hfilter =>
    refine ⟨_, _, hlexemes, hfilter.solid, fun hother => ?_,
      fun _ => ⟨hfilter.not_inside, fun hnot => absurd (hfilter.inside hlexemes) hnot⟩⟩
    simp [hlead] at hother
  | networks hlexemes hlead hsubject hannounce hfilter =>
    refine ⟨_, _, hlexemes, hfilter.solid, fun hother => ?_,
      fun _ => ⟨fun hinside => hannounce ?_, fun _ => hfilter.not_inside⟩⟩
    · simp [hlead] at hother
    · obtain ⟨passed, word, -, htail, -⟩ := hfilter.exists_append hlexemes
      rw [htail, List.append_cons]
      exact hinside.append_left _

end Reads

section Read

variable {factor filterClause : Text}

theorem read_of_reads {result : Factor} (hreads : Reads (joined factor filterClause) result) :
    read factor filterClause = .ok result := by
  simp only [read, findSome?_of_reads hreads]

theorem read_of_not_fits (hnot : ¬Fits (lexemes (joined factor filterClause))) :
    read factor filterClause = .error (.unmatchedFactor (joined factor filterClause)) := by
  simp only [read, findSome?_of_not_fits hnot]

theorem reads_of_read {result : Factor} (hread : read factor filterClause = .ok result) :
    Reads (joined factor filterClause) result := by
  by_cases hfits : Fits (lexemes (joined factor filterClause))
  · obtain ⟨other, hother⟩ := exists_reads_iff.2 hfits
    rw [read_of_reads hother] at hread
    rwa [← Except.ok.inj hread]
  · rw [read_of_not_fits hfits] at hread
    simp at hread

end Read

/-- Factor and filter clause are read as the relation says and refused exactly if their tokens do not
fit. The filter is not empty and has no blanks around it, and the keyword that introduces it stands in
it only at the end. -/
theorem read_eq_iff (factor filterClause : Text) :
    let text := joined factor filterClause
    (∀ result, read factor filterClause = .ok result ↔ Reads text result) ∧
    ((∃ result, read factor filterClause = .ok result) ↔ Fits (lexemes text)) ∧
    (∀ error, read factor filterClause = .error error ↔
      error = .unmatchedFactor text ∧ ¬Fits (lexemes text)) ∧
    ∀ result, read factor filterClause = .ok result → ∃ lead tail,
      lexemes text = lead :: result.subject :: tail ∧ Solid result.filter ∧
        (Keyword.ofWord? lead = some .fromPeer → ¬Inside .accept (lexemes result.filter)) ∧
        (Keyword.ofWord? lead = some .toPeer → ¬Inside .announce (lexemes result.filter) ∧
          (¬Inside .announce tail → ¬Inside .networks (lexemes result.filter))) := by
  intro text
  have hok (result : Factor) : read factor filterClause = .ok result ↔ Reads text result :=
    ⟨reads_of_read, read_of_reads⟩
  refine ⟨hok, ?_, fun error => ?_, fun result hread => (reads_of_read hread).exists_tail⟩
  · simp only [hok, exists_reads_iff]
  · by_cases hfits : Fits (lexemes text)
    · obtain ⟨result, hreads⟩ := exists_reads_iff.2 hfits
      rw [read_of_reads hreads]
      simp [hfits]
    · rw [read_of_not_fits hfits]
      simp [hfits, text, eq_comm]

example : read "TO AS1".toList "ANNOUNCE AS-A ACCEPT AS-B ANNOUNCE;".toList =
    .ok ⟨"AS1".toList, "AS-A ACCEPT AS-B ANNOUNCE".toList⟩ := by decide +kernel

end Factor

end RoutingPolicy
