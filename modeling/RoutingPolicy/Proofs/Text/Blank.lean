import Mathlib.Data.List.DropRight
import RoutingPolicy.Proofs.Text.Slice
import RoutingPolicy.Text.Blank

/-!
# Trimming

Blanks at the ends of a text do not matter to `trim`, and a text without such blanks is not changed
by it.
-/

namespace RoutingPolicy

namespace Text

/-- A text that neither begins nor ends with a blank. -/
def Trimmed (text : Text) : Prop :=
  (∀ c ∈ text.head?, isBlank c = false) ∧ (∀ c ∈ text.getLast?, isBlank c = false)

instance (text : Text) : Decidable (Trimmed text) :=
  decidable_of_iff (text.head?.all (!isBlank ·) ∧ text.getLast?.all (!isBlank ·))
    (by simp [Trimmed, Option.all_eq_true])

/-- A blank is the same in either letter case. -/
theorem toUpper_of_isBlank {c : Char} (hc : isBlank c = true) : c.toUpper = c := by
  rcases toUpper_cases c with hsame | ⟨hlow, hhigh, -⟩
  · exact hsame
  · simp only [isBlank, Bool.or_eq_true, Bool.and_eq_true, decide_eq_true_eq, beq_iff_eq] at hc
    omega

theorem trimEnd_eq_rdropWhile (text : Text) : trimEnd text = text.rdropWhile isBlank := rfl

theorem trimStart_append_left {blanks : Text} (hblanks : ∀ c ∈ blanks, isBlank c = true)
    (text : Text) : trimStart (blanks ++ text) = trimStart text :=
  List.dropWhile_append_of_pos hblanks

theorem trimEnd_append_right (text : Text) {blanks : Text}
    (hblanks : ∀ c ∈ blanks, isBlank c = true) : trimEnd (text ++ blanks) = trimEnd text := by
  rw [trimEnd, List.reverse_append, List.dropWhile_append_of_pos, trimEnd]
  intro c hc
  exact hblanks c (List.mem_reverse.1 hc)

theorem isBlank_getLast?_concat (text : Text) {c : Char} (hc : isBlank c = false) :
    ∀ d ∈ (text ++ [c]).getLast?, isBlank d = false := by
  intro d hd
  rw [List.getLast?_concat, Option.mem_some] at hd
  rw [← hd]
  exact hc

theorem isBlank_getLast?_trimEnd (text : Text) :
    ∀ c ∈ (trimEnd text).getLast?, isBlank c = false := by
  intro c hc
  have hne : trimEnd text ≠ [] := List.ne_nil_of_mem (List.mem_of_getLast? hc)
  rw [List.getLast?_eq_some_getLast hne, Option.mem_some] at hc
  rw [← hc]
  exact Bool.of_not_eq_true (List.rdropWhile_last_not isBlank text hne)

/-- Only blanks are taken off the end. -/
theorem exists_eq_trimEnd_append (text : Text) :
    ∃ blanks, (∀ c ∈ blanks, isBlank c = true) ∧ text = trimEnd text ++ blanks :=
  ⟨text.rtakeWhile isBlank, fun _ => List.mem_rtakeWhile_imp,
    List.rdropWhile_append_rtakeWhile.symm⟩

theorem trimStart_of_head? {text : Text} (hhead : ∀ c ∈ text.head?, isBlank c = false) :
    trimStart text = text := by
  cases text with
  | nil => rfl
  | cons c text => rw [trimStart, List.dropWhile_cons_of_neg (by simp [hhead c rfl])]

theorem trimEnd_of_getLast? {text : Text} (hlast : ∀ c ∈ text.getLast?, isBlank c = false) :
    trimEnd text = text := by
  rw [trimEnd_eq_rdropWhile, List.rdropWhile_eq_self_iff]
  intro hne
  rw [hlast _ (List.getLast?_eq_some_getLast hne)]
  exact Bool.false_ne_true

theorem Trimmed.trim_eq {text : Text} (htext : Trimmed text) : trim text = text := by
  rw [trim, trimStart_of_head? htext.1, trimEnd_of_getLast? htext.2]

theorem trim_append_left {blanks : Text} (hblanks : ∀ c ∈ blanks, isBlank c = true)
    (text : Text) : trim (blanks ++ text) = trim text := by
  rw [trim, trimStart_append_left hblanks, trim]

theorem trim_append_right (text : Text) {blanks : Text}
    (hblanks : ∀ c ∈ blanks, isBlank c = true) : trim (text ++ blanks) = trim text := by
  unfold trim
  rw [trimStart, List.dropWhile_append]
  split
  next hempty =>
    rw [List.isEmpty_iff] at hempty
    rw [List.dropWhile_eq_nil_iff.2 hblanks, trimStart, hempty]
  next => rw [trimEnd_append_right _ hblanks, trimStart]

@[simp] theorem trim_cons_space (text : Text) : trim (' ' :: text) = trim text :=
  trim_append_left (List.forall_mem_singleton.2 rfl) text

@[simp] theorem trim_append_space (text : Text) : trim (text ++ [' ']) = trim text :=
  trim_append_right text (List.forall_mem_singleton.2 rfl)

/-- Only the two ends of a text decide whether it is trimmed. -/
theorem Trimmed.append {first last : Text} (hfirst : Trimmed first) (hlast : Trimmed last)
    (hfirst_ne : first ≠ []) (hlast_ne : last ≠ []) (middle : Text) :
    Trimmed (first ++ middle ++ last) := by
  constructor
  · intro c hc
    rw [List.append_assoc, List.head?_append_of_ne_nil _ hfirst_ne] at hc
    exact hfirst.1 c hc
  · intro c hc
    rw [List.getLast?_append_of_ne_nil _ hlast_ne] at hc
    exact hlast.2 c hc

theorem Trimmed.append_two {first last : Text} (hfirst : Trimmed first) (hlast : Trimmed last)
    (hfirst_ne : first ≠ []) (hlast_ne : last ≠ []) : Trimmed (first ++ last) := by
  simpa using hfirst.append hlast hfirst_ne hlast_ne []

/-- A text without any blank is trimmed. -/
theorem trimmed_of_forall {text : Text} (htext : ∀ c ∈ text, isBlank c = false) : Trimmed text :=
  ⟨fun c hc => htext c (List.mem_of_mem_head? hc),
    fun c hc => htext c (List.mem_of_getLast? hc)⟩

theorem trim_padded {before after : Text} (hbefore : ∀ c ∈ before, isBlank c = true)
    (hafter : ∀ c ∈ after, isBlank c = true) (text : Text) :
    trim (before ++ text ++ after) = trim text := by
  rw [trim_append_right _ hafter, trim_append_left hbefore]

theorem trimmed_trim (text : Text) : Trimmed (trim text) := by
  constructor
  · intro c hc
    obtain ⟨rest, hrest⟩ : trim text <+: trimStart text := List.rdropWhile_prefix isBlank _
    have hhead := List.head?_dropWhile_not isBlank text
    rw [← trimStart, ← hrest, List.head?_append, Option.mem_def.1 hc] at hhead
    exact hhead
  · exact isBlank_getLast?_trimEnd (trimStart text)

/-- The blanks in front, what is left by trimming, and blanks behind it. -/
theorem exists_eq_takeWhile_append_trim (text : Text) : ∃ after,
    (∀ c ∈ after, isBlank c = true) ∧ text = text.takeWhile isBlank ++ trim text ++ after := by
  obtain ⟨after, hafter, hend⟩ := exists_eq_trimEnd_append (trimStart text)
  refine ⟨after, hafter, ?_⟩
  rw [List.append_assoc, trim, ← hend, trimStart, List.takeWhile_append_dropWhile]

/-- Trimming takes blanks off the ends and nothing else. -/
theorem exists_eq_append_trim (text : Text) : ∃ before after, (∀ c ∈ before, isBlank c = true) ∧
    (∀ c ∈ after, isBlank c = true) ∧ text = before ++ trim text ++ after := by
  obtain ⟨after, hafter, htext⟩ := exists_eq_takeWhile_append_trim text
  exact ⟨_, after, fun c => List.mem_takeWhile_imp, hafter, htext⟩

theorem trimStart_append_of_head? (first : Text) {second : Text}
    (hhead : ∀ c ∈ second.head?, isBlank c = false) :
    trimStart (first ++ second) = trimStart first ++ second := by
  have hsecond : second.dropWhile isBlank = second := trimStart_of_head? hhead
  rw [trimStart, List.dropWhile_append, hsecond]
  split
  next hempty => rw [trimStart, List.isEmpty_iff.1 hempty, List.nil_append]
  next => rfl

theorem trimEnd_append_of_getLast? {first : Text} (hlast : ∀ c ∈ first.getLast?, isBlank c = false)
    (second : Text) : trimEnd (first ++ second) = first ++ trimEnd second := by
  have hfirst : ∀ c ∈ first.reverse.head?, isBlank c = false := by
    rwa [List.head?_reverse]
  have hreverse := trimStart_append_of_head? second.reverse hfirst
  rw [trimEnd, List.reverse_append]
  unfold trimStart at hreverse
  rw [hreverse, List.reverse_append, List.reverse_reverse, trimEnd]

/-- What is not blank is kept by trimming. -/
theorem trim_ne_nil {text : Text} {c : Char} (hmem : c ∈ text) (hc : isBlank c = false) :
    trim text ≠ [] := by
  intro hnil
  have hall : ∀ d ∈ trimStart text, isBlank d = true := List.rdropWhile_eq_nil_iff.1 hnil
  rw [← List.takeWhile_append_dropWhile (p := isBlank) (l := text), List.mem_append] at hmem
  have hblank : isBlank c = true := hmem.elim List.mem_takeWhile_imp (hall c)
  rw [hc] at hblank
  exact Bool.false_ne_true hblank

end Text

end RoutingPolicy
