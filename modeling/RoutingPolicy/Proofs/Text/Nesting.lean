import RoutingPolicy.Proofs.Text.Blank

/-!
# Nested braces

A text is well nested if it closes no brace before it has opened one and leaves none open. The number
of open braces is carried along a text, so it is known at every place where the text is divided, and
only the braces of a text change it.
-/

namespace RoutingPolicy

namespace Text

/-- The number of open braces behind a text, given the number in front of it. There is none if the
text closes a brace that is not open. -/
def depth? : Nat → Text → Option Nat
  | depth, [] => some depth
  | depth, c :: text =>
    if c = '{' then depth? (depth + 1) text
    else if c = '}' then
      match depth with
      | 0 => none
      | depth + 1 => depth? depth text
    else depth? depth text

def WellNested (text : Text) : Prop := depth? 0 text = some 0

instance (text : Text) : Decidable (WellNested text) :=
  inferInstanceAs (Decidable (depth? 0 text = some 0))

example : WellNested "{a{b}}{}".toList ∧ ¬WellNested ['}', '{'] := by decide

variable {depth : Nat} {c : Char} {text : Text}

@[simp] theorem depth?_nil : depth? depth [] = some depth := rfl

@[simp] theorem depth?_open : depth? depth ('{' :: text) = depth? (depth + 1) text := rfl

@[simp] theorem depth?_close_zero : depth? 0 ('}' :: text) = none := rfl

@[simp] theorem depth?_close_succ : depth? (depth + 1) ('}' :: text) = depth? depth text := rfl

theorem depth?_cons_of_ne (hopen : c ≠ '{') (hclose : c ≠ '}') :
    depth? depth (c :: text) = depth? depth text := by
  rw [depth?.eq_def]
  simp only [if_neg hopen, if_neg hclose]

theorem depth?_append (depth : Nat) (first second : Text) :
    depth? depth (first ++ second) = (depth? depth first).bind (depth? · second) := by
  induction first generalizing depth with
  | nil => rfl
  | cons c first ih =>
    rw [List.cons_append]
    by_cases hopen : c = '{'
    · subst hopen
      rw [depth?_open, depth?_open, ih]
    by_cases hclose : c = '}'
    · subst hclose
      cases depth with
      | zero => rfl
      | succ depth => rw [depth?_close_succ, depth?_close_succ, ih]
    · rw [depth?_cons_of_ne hopen hclose, depth?_cons_of_ne hopen hclose, ih]

/-- What is left of a well nested text closes the braces that stand open in front of it. -/
theorem exists_depth?_of_suffix {rest : Text} (hrest : rest <:+ text) (htext : WellNested text) :
    ∃ depth, depth? depth rest = some 0 := by
  obtain ⟨front, rfl⟩ := hrest
  rw [WellNested, depth?_append, Option.bind_eq_some_iff] at htext
  obtain ⟨depth, -, hdepth⟩ := htext
  exact ⟨depth, hdepth⟩

/-- A text without braces. -/
def Braceless (text : Text) : Prop := '{' ∉ text ∧ '}' ∉ text

theorem Braceless.depth?_eq (htext : Braceless text) (depth : Nat) :
    depth? depth text = some depth := by
  induction text with
  | nil => rfl
  | cons c text ih =>
    obtain ⟨hopen, hclose⟩ := htext
    rw [List.mem_cons, not_or] at hopen hclose
    rw [depth?_cons_of_ne (Ne.symm hopen.1) (Ne.symm hclose.1), ih ⟨hopen.2, hclose.2⟩]

theorem Braceless.wellNested (htext : Braceless text) : WellNested text := htext.depth?_eq 0

theorem Braceless.depth?_append_left (htext : Braceless text) (depth : Nat) (more : Text) :
    depth? depth (text ++ more) = depth? depth more := by
  rw [depth?_append, htext.depth?_eq, Option.bind_some]

theorem Braceless.depth?_append_right (htext : Braceless text) (depth : Nat) (more : Text) :
    depth? depth (more ++ text) = depth? depth more := by
  rw [depth?_append]
  cases depth? depth more with
  | none => rfl
  | some behind => exact htext.depth?_eq behind

theorem braceless_of_blanks (htext : ∀ c ∈ text, isBlank c = true) : Braceless text := by
  constructor
  · intro hmem
    exact absurd (htext _ hmem) (by decide)
  · intro hmem
    exact absurd (htext _ hmem) (by decide)

/-- A text nests in the same way inside of braces that are open already. -/
theorem depth?_add {behind : Nat} (hdepth : depth? depth text = some behind) (more : Nat) :
    depth? (depth + more) text = some (behind + more) := by
  induction text generalizing depth with
  | nil =>
    obtain rfl := Option.some.inj hdepth
    rfl
  | cons c text ih =>
    by_cases hopen : c = '{'
    · subst hopen
      rw [depth?_open] at hdepth ⊢
      rw [Nat.add_right_comm, ih hdepth]
    by_cases hclose : c = '}'
    · subst hclose
      cases depth with
      | zero => simp at hdepth
      | succ depth =>
        rw [depth?_close_succ] at hdepth
        rw [Nat.add_right_comm, depth?_close_succ, ih hdepth]
    · rw [depth?_cons_of_ne hopen hclose] at hdepth ⊢
      exact ih hdepth

/-- No letter becomes a brace in another case. -/
theorem toUpper_eq_brace_iff {c brace : Char} (hbrace : brace = '{' ∨ brace = '}') :
    c.toUpper = brace ↔ c = brace := by
  have hcode : 123 ≤ brace.toNat := by rcases hbrace with rfl | rfl <;> decide
  rcases toUpper_cases c with hsame | ⟨hlow, hhigh, hupper⟩
  · rw [hsame]
  · constructor
    · rintro rfl
      omega
    · rintro rfl
      omega

theorem depth?_map_toUpper (depth : Nat) (text : Text) :
    depth? depth (text.map Char.toUpper) = depth? depth text := by
  induction text generalizing depth with
  | nil => rfl
  | cons c text ih =>
    rw [List.map_cons]
    by_cases hopen : c = '{'
    · rw [(toUpper_eq_brace_iff (.inl rfl)).2 hopen, hopen, depth?_open, depth?_open, ih]
    by_cases hclose : c = '}'
    · rw [(toUpper_eq_brace_iff (.inr rfl)).2 hclose, hclose]
      cases depth with
      | zero => rfl
      | succ depth => rw [depth?_close_succ, depth?_close_succ, ih]
    · rw [depth?_cons_of_ne hopen hclose, depth?_cons_of_ne, ih]
      · exact fun heq => hopen ((toUpper_eq_brace_iff (.inl rfl)).1 heq)
      · exact fun heq => hclose ((toUpper_eq_brace_iff (.inr rfl)).1 heq)

/-- Opening and closing braces make up the difference of the depths. -/
theorem count_of_depth?_eq_some {depth behind : Nat} (hdepth : depth? depth text = some behind) :
    depth + text.count '{' = behind + text.count '}' := by
  induction text generalizing depth with
  | nil => simpa using hdepth
  | cons c text ih =>
    by_cases hopen : c = '{'
    · subst hopen
      have hrest := ih hdepth
      rw [List.count_cons_self, List.count_cons_of_ne (by decide)]
      omega
    by_cases hclose : c = '}'
    · subst hclose
      cases depth with
      | zero => simp at hdepth
      | succ depth =>
        have hrest := ih hdepth
        rw [List.count_cons_self, List.count_cons_of_ne (by decide)]
        omega
    · rw [depth?_cons_of_ne hopen hclose] at hdepth
      rw [List.count_cons_of_ne hopen, List.count_cons_of_ne hclose, ih hdepth]

/-- A text that closes a brace which is not open has a first such brace. -/
theorem exists_close_of_depth?_eq_none {depth : Nat} (hdepth : depth? depth text = none) :
    ∃ inside rest, text = inside ++ '}' :: rest ∧ depth? depth inside = some 0 := by
  induction text generalizing depth with
  | nil => simp at hdepth
  | cons c text ih =>
    by_cases hopen : c = '{'
    · subst hopen
      obtain ⟨inside, rest, rfl, hinside⟩ := ih hdepth
      exact ⟨'{' :: inside, rest, rfl, hinside⟩
    by_cases hclose : c = '}'
    · subst hclose
      cases depth with
      | zero => exact ⟨[], text, rfl, rfl⟩
      | succ depth =>
        obtain ⟨inside, rest, rfl, hinside⟩ := ih hdepth
        exact ⟨'}' :: inside, rest, rfl, hinside⟩
    · rw [depth?_cons_of_ne hopen hclose] at hdepth
      obtain ⟨inside, rest, rfl, hinside⟩ := ih hdepth
      exact ⟨c :: inside, rest, rfl, by rwa [depth?_cons_of_ne hopen hclose]⟩

theorem depth?_filter_not_isBlank (depth : Nat) (text : Text) :
    depth? depth (text.filter (!isBlank ·)) = depth? depth text := by
  induction text generalizing depth with
  | nil => rfl
  | cons c text ih =>
    by_cases hblank : isBlank c = true
    · have hbraceless : Braceless [c] := braceless_of_blanks (List.forall_mem_singleton.2 hblank)
      rw [List.filter_cons_of_neg (by simp [hblank]), ih, ← List.singleton_append,
        hbraceless.depth?_append_left]
    · rw [List.filter_cons_of_pos (by simp [hblank])]
      change depth? depth ([c] ++ text.filter _) = depth? depth ([c] ++ text)
      rw [depth?_append, depth?_append]
      simp only [ih]

theorem depth?_trim (depth : Nat) (text : Text) : depth? depth (trim text) = depth? depth text := by
  obtain ⟨before, after, hbefore, hafter, htext⟩ := exists_eq_append_trim text
  conv_rhs => rw [htext]
  rw [(braceless_of_blanks hafter).depth?_append_right,
    (braceless_of_blanks hbefore).depth?_append_left]

theorem wellNested_trim_iff : WellNested (trim text) ↔ WellNested text := by
  rw [WellNested, depth?_trim, WellNested]

end Text

end RoutingPolicy
