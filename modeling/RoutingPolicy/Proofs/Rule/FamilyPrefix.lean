import RoutingPolicy.Proofs.Rule.Position
import RoutingPolicy.Proofs.Text.Slice
import RoutingPolicy.Rule.Parsed

/-!
# The family in front of a rule

A multiprotocol rule names its family behind `AFI`, and a blank ends the name. Only the token for
IPv6 may run into the `FROM` of the rule, and this reading comes first. Which family a text begins
with, and what is left of the text, is told here by relations without a scan, and the family is
split off exactly as they say. A family that is written in front of a rule is found again.
-/

namespace RoutingPolicy

open Text

/-- A text begins with a word in some letter case, and goes on with `rest`. -/
def Text.Begins (word text rest : Text) : Prop :=
  ∃ head, text = head ++ rest ∧ sameLetters head word = true

theorem Text.dropHead?_eq_some_iff {word text rest : Text} :
    dropHead? word text = some rest ↔ Begins word text rest := by
  unfold dropHead?
  constructor
  · intro hdrop
    rw [Option.ite_none_right_eq_some] at hdrop
    obtain ⟨hletters, hrest⟩ := hdrop
    refine ⟨text.take word.length, ?_, hletters⟩
    rw [← Option.some.inj hrest, List.take_append_drop]
  · rintro ⟨head, rfl, hletters⟩
    have hlength := length_of_sameLetters hletters
    rw [List.take_left' hlength, List.drop_left' hlength, if_pos hletters]

theorem Text.dropHead?_eq_none_iff {word text : Text} :
    dropHead? word text = none ↔ ∀ rest, ¬Begins word text rest := by
  rw [Option.eq_none_iff_forall_ne_some]
  exact forall_congr' fun rest => not_congr dropHead?_eq_some_iff

theorem Text.dropHead?_cons_of_ne {c d : Char} (hne : c.toUpper ≠ d.toUpper) (head text : Text) :
    dropHead? (d :: head) (c :: text) = none := by
  have hdiffer : ¬sameLetters ((c :: text).take (d :: head).length) (d :: head) = true := by
    rw [sameLetters, List.length_cons, List.take_succ_cons, List.map_cons, List.map_cons,
      beq_iff_eq, List.cons.injEq, not_and_or]
    exact .inl hne
  rw [dropHead?, if_neg hdiffer]

/-- What follows a text does not complete a word that the text begins, unless the word could go on
with it. -/
theorem Text.begins_append_iff {word text after rest : Text}
    (hafter : ∀ c ∈ after.head?, c.toUpper ∉ word.map Char.toUpper) :
    Begins word (text ++ after) rest ↔ ∃ tail, Begins word text tail ∧ tail ++ after = rest := by
  constructor
  · rintro ⟨head, heq, hletters⟩
    rcases List.append_eq_append_iff.1 heq with ⟨more, rfl, hrest⟩ | ⟨tail, rfl, rfl⟩
    · cases more with
      | nil =>
        rw [List.append_nil] at hletters
        exact ⟨[], ⟨text, (List.append_nil text).symm, hletters⟩, hrest⟩
      | cons c more =>
        -- the word would include the first character behind the text
        have hmem : c ∈ text ++ c :: more := List.mem_append_right text List.mem_cons_self
        refine absurd ?_ (hafter c (by rw [hrest]; rfl))
        rw [← beq_iff_eq.1 hletters]
        exact List.mem_map_of_mem hmem
    · exact ⟨tail, ⟨head, rfl, hletters⟩, rfl⟩
  · rintro ⟨tail, ⟨head, rfl, hletters⟩, rfl⟩
    exact ⟨head, List.append_assoc _ _ _, hletters⟩

theorem Text.dropHead?_append_of_head? {word after : Text}
    (hafter : ∀ c ∈ after.head?, c.toUpper ∉ word.map Char.toUpper) (text : Text) :
    dropHead? word (text ++ after) = (dropHead? word text).map (· ++ after) := by
  ext rest
  rw [dropHead?_eq_some_iff, begins_append_iff hafter, Option.map_eq_some_iff]
  simp only [dropHead?_eq_some_iff]

namespace AddressFamily

variable {text rest body token : Text} {family : AddressFamily}

/-! ### What a rule begins with -/

/-- In front of `rest` there are `AFI` and at least one blank. -/
def BehindKeyword (text rest : Text) : Prop :=
  ∃ blanks, Begins Keyword.afi.name text (blanks ++ rest) ∧ blanks ≠ [] ∧
    ∀ c ∈ blanks, isBlank c = true

/-- The token for IPv6 runs into the `FROM` with which `body` begins. -/
def Glued (text body : Text) : Prop :=
  ∃ rest, BehindKeyword text rest ∧ Begins ipv6Unicast.name rest body ∧
    ∃ later, Begins Keyword.fromPeer.name body later

/-- A token is named, and there is at least one blank between it and `rest`. -/
def Names (text token rest : Text) : Prop :=
  ∃ blanks, BehindKeyword text (token ++ blanks ++ rest) ∧ token ≠ [] ∧
    (∀ c ∈ token, isBlank c = false) ∧ blanks ≠ [] ∧ ∀ c ∈ blanks, isBlank c = true

/-- The family that a text begins with, and what is left of the text. -/
inductive SplitsOff (text : Text) : AddressFamily → Text → Prop
  | glued {body : Text} (hglued : Glued text body) : SplitsOff text ipv6Unicast body
  | named {token rest : Text} (hglued : ∀ body, ¬Glued text body) (hnames : Names text token rest) :
      SplitsOff text (ofToken token) (trimStart rest)
  | unnamed (hglued : ∀ body, ¬Glued text body) (hnames : ∀ token rest, ¬Names text token rest) :
      SplitsOff text any text

/-- No name has a blank in it. -/
theorem toUpper_not_mem_of_blanks {head after : Text}
    (hhead : (head.all fun d => !isBlank d.toUpper) = true)
    (hafter : ∀ c ∈ after, isBlank c = true) {c : Char} (hc : c ∈ after.head?) :
    c.toUpper ∉ head.map Char.toUpper := by
  have hblank := hafter c (List.mem_of_mem_head? hc)
  intro hmem
  rw [toUpper_of_isBlank hblank] at hmem
  obtain ⟨d, hd, heq⟩ := List.mem_map.1 hmem
  have hletter := List.all_eq_true.1 hhead d hd
  rw [heq, hblank] at hletter
  exact Bool.false_ne_true hletter

theorem isBlank_head?_of_begins {word : Text}
    (hword : (word.all fun c => !isBlank c.toUpper) = true) (hne : word ≠ [])
    (hbegins : Begins word text rest) : ∀ c ∈ text.head?, isBlank c = false := by
  obtain ⟨head, rfl, hletters⟩ := hbegins
  intro c hc
  by_contra hblank
  rw [Bool.not_eq_false] at hblank
  have hhead : head ≠ [] := by
    rintro rfl
    exact hne (List.length_eq_zero_iff.1 (length_of_sameLetters hletters).symm)
  rw [List.head?_append_of_ne_nil _ hhead] at hc
  have hupper : c.toUpper ∈ word.map Char.toUpper := by
    rw [← beq_iff_eq.1 hletters]
    exact List.mem_map_of_mem (List.mem_of_mem_head? hc)
  exact toUpper_not_mem_of_blanks hword (List.forall_mem_singleton.2 hblank) rfl hupper

/-- The blanks behind `AFI` are skipped as far as they go. -/
theorem afterKeyword?_eq_some_iff : afterKeyword? text = some rest ↔
    BehindKeyword text rest ∧ ∀ c ∈ rest.head?, isBlank c = false := by
  unfold afterKeyword?
  constructor
  · intro hrest
    split at hrest
    next c tail hdrop =>
      rw [Option.ite_none_right_eq_some] at hrest
      obtain ⟨hblank, hrest⟩ := hrest
      rw [← Option.some.inj hrest]
      refine ⟨⟨(c :: tail).takeWhile isBlank, ?_, ?_, fun d => List.mem_takeWhile_imp⟩, ?_⟩
      · rw [trimStart, List.takeWhile_append_dropWhile]
        exact dropHead?_eq_some_iff.1 hdrop
      · rw [List.takeWhile_cons_of_pos hblank]
        exact List.cons_ne_nil c _
      · intro d hd
        have hhead := List.head?_dropWhile_not isBlank (c :: tail)
        rwa [← trimStart, Option.mem_def.1 hd] at hhead
    next => simp at hrest
  · rintro ⟨⟨blanks, hbegins, hne, hblanks⟩, hhead⟩
    obtain ⟨c, tail, rfl⟩ := List.exists_cons_of_ne_nil hne
    have htrim : trimStart (c :: (tail ++ rest)) = rest := by
      rw [← List.cons_append, trimStart_append_left hblanks, trimStart_of_head? hhead]
    rw [dropHead?_eq_some_iff.2 hbegins, List.cons_append]
    simp only [hblanks c List.mem_cons_self, if_true, htrim]

theorem afterGluedIpv6?_eq_some_iff : afterGluedIpv6? rest = some body ↔
    Begins ipv6Unicast.name rest body ∧ ∃ later, Begins Keyword.fromPeer.name body later := by
  have hlead (other : Text) : (dropHead? Keyword.fromPeer.name other).isSome = true ↔
      ∃ later, Begins Keyword.fromPeer.name other later := by
    simp only [Option.isSome_iff_exists, dropHead?_eq_some_iff]
  unfold afterGluedIpv6?
  split
  next other hdrop =>
    have hother := dropHead?_eq_some_iff.1 hdrop
    rw [Option.ite_none_right_eq_some, hlead, Option.some.injEq]
    constructor
    · rintro ⟨hfrom, rfl⟩
      exact ⟨hother, hfrom⟩
    · rintro ⟨hbegins, hfrom⟩
      obtain rfl : other = body :=
        Option.some.inj (hdrop.symm.trans (dropHead?_eq_some_iff.2 hbegins))
      exact ⟨hfrom, rfl⟩
  next hdrop =>
    have hnone := dropHead?_eq_none_iff.1 hdrop body
    simp [hnone]

theorem afterGluedIpv6?_append {after : Text}
    (htoken : ∀ c ∈ after.head?, c.toUpper ∉ ipv6Unicast.name.map Char.toUpper)
    (hlead : ∀ c ∈ after.head?, c.toUpper ∉ Keyword.fromPeer.name.map Char.toUpper) (text : Text) :
    afterGluedIpv6? (text ++ after) = (afterGluedIpv6? text).map (· ++ after) := by
  unfold afterGluedIpv6?
  rw [dropHead?_append_of_head? htoken]
  cases dropHead? ipv6Unicast.name text with
  | none => rfl
  | some rest =>
    simp only [Option.map_some]
    rw [dropHead?_append_of_head? hlead, Option.isSome_map]
    split <;> rfl

theorem glued_iff : Glued text body ↔
    ∃ rest, afterKeyword? text = some rest ∧ afterGluedIpv6? rest = some body := by
  constructor
  · rintro ⟨rest, hbehind, hbegins, hfrom⟩
    have hhead := isBlank_head?_of_begins (by decide) (by decide) hbegins
    exact ⟨rest, afterKeyword?_eq_some_iff.2 ⟨hbehind, hhead⟩,
      afterGluedIpv6?_eq_some_iff.2 ⟨hbegins, hfrom⟩⟩
  · rintro ⟨rest, hrest, hglued⟩
    exact ⟨rest, (afterKeyword?_eq_some_iff.1 hrest).1, afterGluedIpv6?_eq_some_iff.1 hglued⟩

/-- The token is what stands in front of the first blank. -/
theorem Names.exists_afterKeyword? (hnames : Names text token rest) : ∃ named c remainder,
    afterKeyword? text = some named ∧ named.takeWhile (!isBlank ·) = token ∧
      named.dropWhile (!isBlank ·) = c :: remainder ∧ trimStart remainder = trimStart rest := by
  obtain ⟨blanks, hbehind, hne, htoken, hblanks_ne, hblanks⟩ := hnames
  obtain ⟨c, more, rfl⟩ := List.exists_cons_of_ne_nil hblanks_ne
  obtain ⟨hc, hmore⟩ := List.forall_mem_cons.1 hblanks
  have hword : ∀ d ∈ token, (!isBlank d) = true := fun d hd => by rw [htoken d hd, Bool.not_false]
  refine ⟨token ++ (c :: more) ++ rest, c, more ++ rest, ?_, ?_, ?_,
    trimStart_append_left hmore rest⟩
  · refine afterKeyword?_eq_some_iff.2 ⟨hbehind, fun d hd => ?_⟩
    rw [List.append_assoc, List.head?_append_of_ne_nil _ hne] at hd
    exact htoken d (List.mem_of_mem_head? hd)
  · rw [List.append_assoc, List.takeWhile_append_of_pos hword, List.cons_append,
      List.takeWhile_cons_of_neg (by simp [hc]), List.append_nil]
  · rw [List.append_assoc, List.dropWhile_append_of_pos hword, List.cons_append,
      List.dropWhile_cons_of_neg (by simp [hc])]

theorem names_of_afterKeyword? {named remainder : Text} {c : Char}
    (hnamed : afterKeyword? text = some named)
    (hdrop : named.dropWhile (!isBlank ·) = c :: remainder) :
    Names text (named.takeWhile (!isBlank ·)) remainder := by
  obtain ⟨hbehind, hhead⟩ := afterKeyword?_eq_some_iff.1 hnamed
  have hblank : isBlank c = true := by
    have hc := List.head?_dropWhile_not (!isBlank ·) named
    rw [hdrop] at hc
    simpa using hc
  refine ⟨[c], ?_, ?_, ?_, List.cons_ne_nil c [], List.forall_mem_singleton.2 hblank⟩
  · rwa [List.append_assoc, List.singleton_append, ← hdrop, List.takeWhile_append_dropWhile]
  · intro hnil
    -- without a token the text would go on with a blank
    have hall := List.takeWhile_append_dropWhile (p := (!isBlank ·)) (l := named)
    rw [hnil, hdrop, List.nil_append] at hall
    rw [← hall] at hhead
    rw [hhead c rfl] at hblank
    exact Bool.false_ne_true hblank
  · intro d hd
    simpa using List.mem_takeWhile_imp hd

/-! ### What is split off -/

theorem resolve_of_none (hnone : afterKeyword? text = none) :
    resolve text = (any, text) := by
  rw [resolve, hnone]

theorem afterGluedIpv6?_of_not_glued (hglued : ∀ body, ¬Glued text body)
    (hrest : afterKeyword? text = some rest) : afterGluedIpv6? rest = none := by
  by_contra hsome
  obtain ⟨body, hbody⟩ := Option.ne_none_iff_exists'.1 hsome
  exact hglued body (glued_iff.2 ⟨rest, hrest, hbody⟩)

theorem resolve_of_splitsOff (hsplits : SplitsOff text family body) :
    resolve text = (family, body) := by
  cases hsplits with
  | glued hglued =>
    obtain ⟨rest, hrest, hbody⟩ := glued_iff.1 hglued
    simp only [resolve, hrest, hbody]
  | named hglued hnames =>
    obtain ⟨named, c, remainder, hnamed, htake, hdrop, htrim⟩ := hnames.exists_afterKeyword?
    simp only [resolve, hnamed, afterGluedIpv6?_of_not_glued hglued hnamed, hdrop, htake, htrim]
  | unnamed hglued hnames =>
    cases hrest : afterKeyword? text with
    | none => exact resolve_of_none hrest
    | some rest =>
      have hdrop : rest.dropWhile (!isBlank ·) = [] := by
        by_contra hne
        obtain ⟨c, remainder, hdrop⟩ := List.exists_cons_of_ne_nil hne
        exact hnames _ remainder (names_of_afterKeyword? hrest hdrop)
      simp only [resolve, hrest, afterGluedIpv6?_of_not_glued hglued hrest, hdrop]

theorem exists_splitsOff (text : Text) : ∃ family body, SplitsOff text family body := by
  by_cases hglued : ∃ body, Glued text body
  · obtain ⟨body, hglued⟩ := hglued
    exact ⟨ipv6Unicast, body, .glued hglued⟩
  by_cases hnames : ∃ token rest, Names text token rest
  · obtain ⟨token, rest, hnames⟩ := hnames
    exact ⟨ofToken token, trimStart rest, .named (not_exists.1 hglued) hnames⟩
  · exact ⟨any, text, .unnamed (not_exists.1 hglued)
      fun token rest htoken => hnames ⟨token, rest, htoken⟩⟩

theorem splitsOff_resolve (text : Text) : SplitsOff text (resolve text).1 (resolve text).2 := by
  obtain ⟨family, body, hsplits⟩ := exists_splitsOff text
  rwa [resolve_of_splitsOff hsplits]

/-! ### What is left of a rule -/

theorem BehindKeyword.suffix {text rest : Text} (hrest : BehindKeyword text rest) :
    rest <:+ text := by
  obtain ⟨blanks, ⟨head, rfl, -⟩, -⟩ := hrest
  exact (List.suffix_append blanks rest).trans (List.suffix_append head _)

theorem SplitsOff.suffix {text body : Text} {family : AddressFamily}
    (hsplits : SplitsOff text family body) : body <:+ text := by
  cases hsplits with
  | glued hglued =>
    obtain ⟨rest, hbehind, ⟨token, rfl, -⟩, -⟩ := hglued
    exact (List.suffix_append token body).trans hbehind.suffix
  | @named token rest hglued hnames =>
    obtain ⟨blanks, hbehind, -⟩ := hnames
    have hrest : trimStart rest <:+ rest := List.dropWhile_suffix isBlank
    exact hrest.trans ((List.suffix_append (token ++ blanks) rest).trans hbehind.suffix)
  | unnamed hglued hnames => exact List.suffix_refl text

/-! ### Families that are written in front of a rule -/

/-- A family that is found again: one with a name of its own, or another token that is taken neither
for one of these nor for the token for IPv6 with `FROM` glued to it. -/
inductive Writable : AddressFamily → Prop
  | named {family : AddressFamily} (hknown : family ∈ known) : Writable family
  | token {token : Text} (hne : token ≠ []) (hsolid : ∀ c ∈ token, isBlank c = false)
      (hknown : ∀ family ∈ known, sameLetters family.name token = false)
      (hglued : ∀ rest, ¬Begins (ipv6Unicast.name ++ Keyword.fromPeer.name) token rest) :
      Writable (other token)

theorem ofToken_name (hfamily : family ∈ known) : ofToken family.name = family := by
  simp only [known, List.mem_cons, List.not_mem_nil, or_false] at hfamily
  rcases hfamily with rfl | rfl | rfl | rfl <;> decide

theorem plainWord_name (hfamily : family ∈ known) : PlainWord family.name := by
  simp only [known, List.mem_cons, List.not_mem_nil, or_false] at hfamily
  rcases hfamily with rfl | rfl | rfl | rfl <;> decide

theorem Writable.name_ne_nil (hfamily : family.Writable) : family.name ≠ [] := by
  cases hfamily with
  | named hknown => exact (plainWord_name hknown).isWord.1
  | token hne hsolid hknown hglued => exact hne

theorem Writable.isBlank_name (hfamily : family.Writable) :
    ∀ c ∈ family.name, isBlank c = false := by
  cases hfamily with
  | named hknown => exact fun c hc => isBlank_of_isWordChar ((plainWord_name hknown).isWord.2 c hc)
  | token hne hsolid hknown hglued => exact hsolid

theorem ofToken_eq_other (hknown : ∀ family ∈ known, sameLetters family.name token = false) :
    ofToken token = other token := by
  have hnone : known.find? (fun family => sameLetters family.name token) = none :=
    List.find?_eq_none.2 fun family hmem => by
      rw [hknown family hmem]
      exact Bool.false_ne_true
  rw [ofToken, hnone]

theorem Writable.ofToken_eq (hfamily : family.Writable) : ofToken family.name = family := by
  cases hfamily with
  | named hknown => exact ofToken_name hknown
  | token hne hsolid hknown hglued => exact ofToken_eq_other hknown

theorem afterGluedIpv6?_eq_none_iff : afterGluedIpv6? rest = none ↔
    ∀ later, ¬Begins (ipv6Unicast.name ++ Keyword.fromPeer.name) rest later := by
  rw [Option.eq_none_iff_forall_ne_some]
  constructor
  · rintro hnone later ⟨head, rfl, hletters⟩
    have hlength := length_of_sameLetters hletters
    rw [List.length_append] at hlength
    -- the two words that are spelled are found one behind the other
    have hupper := beq_iff_eq.1 hletters
    rw [← List.take_append_drop ipv6Unicast.name.length head, List.map_append,
      List.map_append] at hupper
    obtain ⟨htoken, hfrom⟩ := List.append_inj hupper (by simp [hlength])
    refine hnone _ (afterGluedIpv6?_eq_some_iff.2
      ⟨⟨head.take ipv6Unicast.name.length, ?_, beq_iff_eq.2 htoken⟩, later,
        head.drop ipv6Unicast.name.length, rfl, beq_iff_eq.2 hfrom⟩)
    rw [← List.append_assoc, List.take_append_drop]
  · rintro hnone body hbody
    obtain ⟨⟨head, rfl, htoken⟩, later, lead, rfl, hfrom⟩ := afterGluedIpv6?_eq_some_iff.1 hbody
    refine hnone later ⟨head ++ lead, (List.append_assoc _ _ _).symm, ?_⟩
    rw [sameLetters, beq_iff_eq] at htoken hfrom ⊢
    rw [List.map_append, List.map_append, htoken, hfrom]

/-- A blank behind the name of a family keeps it apart from the rule. -/
theorem Writable.afterGluedIpv6?_name (hfamily : family.Writable) (rule : Text) :
    afterGluedIpv6? (family.name ++ ([' '] ++ rule)) = none := by
  have hspace {word : Text} (hword : ' ' ∉ word.map Char.toUpper) :
      ∀ c ∈ ([' '] ++ rule).head?, c.toUpper ∉ word.map Char.toUpper := by
    rintro c ⟨⟩
    exact hword
  have hname : afterGluedIpv6? family.name = none := by
    cases hfamily with
    | named hknown =>
      simp only [known, List.mem_cons, List.not_mem_nil, or_false] at hknown
      rcases hknown with rfl | rfl | rfl | rfl <;> decide
    | token hne hsolid hknown hglued => exact afterGluedIpv6?_eq_none_iff.2 hglued
  rw [afterGluedIpv6?_append (hspace (by decide)) (hspace (by decide)), hname, Option.map_none]

/-- A family in front of a rule. -/
def written (family : AddressFamily) (rule : Text) : Text :=
  Keyword.afi.name ++ [' '] ++ family.name ++ [' '] ++ rule

section Written

variable (hfamily : family.Writable) (rule : Text)

include hfamily

theorem Writable.afterKeyword?_written :
    afterKeyword? (written family rule) = some (family.name ++ ([' '] ++ rule)) := by
  refine afterKeyword?_eq_some_iff.2 ⟨⟨[' '], ⟨Keyword.afi.name, ?_, by decide⟩,
    List.cons_ne_nil _ _, List.forall_mem_singleton.2 rfl⟩, fun c hc => ?_⟩
  · simp only [written, List.append_assoc]
  · rw [List.head?_append_of_ne_nil _ hfamily.name_ne_nil] at hc
    exact hfamily.isBlank_name c (List.mem_of_mem_head? hc)

theorem Writable.not_glued_written (body : Text) : ¬Glued (written family rule) body := by
  intro hglued
  obtain ⟨rest, hrest, hbody⟩ := glued_iff.1 hglued
  rw [hfamily.afterKeyword?_written] at hrest
  rw [← Option.some.inj hrest, hfamily.afterGluedIpv6?_name] at hbody
  exact absurd hbody.symm (Option.some_ne_none body)

theorem Writable.names_written : Names (written family rule) family.name rule := by
  have hbehind := (afterKeyword?_eq_some_iff.1 (hfamily.afterKeyword?_written rule)).1
  rw [← List.append_assoc] at hbehind
  exact ⟨[' '], hbehind, hfamily.name_ne_nil, hfamily.isBlank_name, List.cons_ne_nil _ _,
    List.forall_mem_singleton.2 rfl⟩

end Written

theorem Writable.resolve_written (hfamily : family.Writable) {rule : Text}
    (hrule : ∀ c ∈ rule.head?, isBlank c = false) :
    resolve (written family rule) = (family, rule) := by
  have hsplits : SplitsOff (written family rule) _ _ :=
    .named (hfamily.not_glued_written rule) (hfamily.names_written rule)
  rw [resolve_of_splitsOff hsplits, hfamily.ofToken_eq, trimStart_of_head? hrule]

/-- The family is split off as the relation of a text, its family and the rest says. A family
written in front of a rule comes off together with what leads to it. -/
theorem resolve_eq_iff_splitsOff :
    (∀ text family body, resolve text = (family, body) ↔ SplitsOff text family body) ∧
    ∀ family rule, Writable family → (∀ c ∈ rule.head?, isBlank c = false) →
      resolve (written family rule) = (family, rule) := by
  refine ⟨fun text family body => ⟨fun hresolve => ?_, resolve_of_splitsOff⟩,
    fun family rule hfamily hrule => hfamily.resolve_written hrule⟩
  have hsplits := splitsOff_resolve text
  rwa [hresolve] at hsplits

/-- The token for IPv6 with a part of `FROM` behind it is another token, and a rule may be empty. -/
theorem resolve_written_broken_token :
    let family := other "ipv6.unicastfro".toList
    family.Writable ∧ resolve (written family "m AS1".toList) = (family, "m AS1".toList) ∧
      resolve (written family []) = (family, []) := by
  intro family
  have hglued := dropHead?_eq_none_iff.1 (by decide :
    dropHead? (ipv6Unicast.name ++ Keyword.fromPeer.name) "ipv6.unicastfro".toList = none)
  have hsolid : ∀ c ∈ "ipv6.unicastfro".toList, isBlank c = false := fun c hc =>
    isBlank_of_isWordChar (List.all_eq_true.1 (by decide) c hc)
  have hfamily : family.Writable := .token (by decide) hsolid (by decide) hglued
  have hhead : ∀ c ∈ ("m AS1".toList).head?, isBlank c = false := by
    intro c hc
    obtain rfl := Option.some.inj hc
    rfl
  obtain ⟨-, hwritten⟩ := resolve_eq_iff_splitsOff
  exact ⟨hfamily, hwritten family _ hfamily hhead,
    hwritten family [] hfamily fun c hc => absurd hc.symm (Option.some_ne_none c)⟩

end AddressFamily

theorem ParsedRule.suffix_splitFamily (text : Text) (context : Context) :
    (splitFamily text context).2 <:+ text := by
  unfold splitFamily
  split
  next => exact (AddressFamily.splitsOff_resolve text).suffix
  next => exact List.suffix_refl text

end RoutingPolicy
