import Mathlib.Data.List.Infix
import RoutingPolicy.Text.Basic

/-!
# Splitting texts

Pieces joined by a character are found again when they do not contain it, and a text is split at the
first occurrence of a mark.
-/

namespace RoutingPolicy

namespace Text

theorem splitOn_eq_list_splitOn (separator : Char) (text : Text) :
    splitOn separator text = List.splitOn separator text := by
  induction text with
  | nil => rfl
  | cons c text ih =>
    rw [splitOn, List.splitOn_cons_eq_if_modifyHead, ih]
    by_cases hc : c = separator
    · rw [if_pos hc, if_pos (by simpa using hc)]
    · rw [if_neg hc, if_neg (by simpa using hc)]
      cases hpieces : List.splitOn separator text with
      | nil => exact absurd hpieces (List.splitOn_ne_nil separator text)
      | cons piece pieces => rfl

theorem splitOn_intercalate {separator : Char} {pieces : List Text}
    (hpieces : ∀ piece ∈ pieces, separator ∉ piece) (hne : pieces ≠ []) :
    splitOn separator ([separator].intercalate pieces) = pieces := by
  rw [splitOn_eq_list_splitOn, List.splitOn_intercalate separator hpieces hne]

theorem splitOn_cons_of_ne {separator c : Char} {text piece : Text} {pieces : List Text}
    (hc : c ≠ separator) (hpieces : splitOn separator text = piece :: pieces) :
    splitOn separator (c :: text) = (c :: piece) :: pieces := by
  rw [splitOn, if_neg hc, hpieces]

/-- Characters other than the separator may be dropped before a text is split. -/
theorem splitOn_filter {separator : Char} {keep : Char → Bool} (hseparator : keep separator = true)
    (text : Text) :
    splitOn separator (text.filter keep) = (splitOn separator text).map (List.filter keep) := by
  induction text with
  | nil => rfl
  | cons c text ih =>
    by_cases hc : c = separator
    · rw [List.filter_cons_of_pos (by rwa [hc]), splitOn, if_pos hc, splitOn, if_pos hc, ih]
      rfl
    · obtain ⟨piece, pieces, hpieces⟩ :=
        List.exists_cons_of_ne_nil (splitOn_ne_nil separator text)
      rw [hpieces, List.map_cons] at ih
      rw [splitOn_cons_of_ne hc hpieces, List.map_cons]
      by_cases hkeep : keep c = true
      · rw [List.filter_cons_of_pos hkeep, List.filter_cons_of_pos hkeep,
          splitOn_cons_of_ne hc ih]
      · rw [List.filter_cons_of_neg hkeep, List.filter_cons_of_neg hkeep, ih]

theorem splitOn_append_separator (separator : Char) (text : Text) :
    splitOn separator (text ++ [separator]) = splitOn separator text ++ [[]] := by
  induction text with
  | nil => simp [splitOn]
  | cons c text ih =>
    rw [List.cons_append]
    by_cases hc : c = separator
    · rw [splitOn, if_pos hc, ih, splitOn, if_pos hc, List.cons_append]
    · obtain ⟨piece, pieces, hpieces⟩ :=
        List.exists_cons_of_ne_nil (splitOn_ne_nil separator text)
      rw [hpieces, List.cons_append] at ih
      rw [splitOn_cons_of_ne hc ih, splitOn_cons_of_ne hc hpieces, List.cons_append]

theorem not_mem_of_mem_splitOn {separator : Char} {text piece : Text}
    (hpiece : piece ∈ splitOn separator text) : separator ∉ piece := by
  induction text generalizing piece with
  | nil =>
    rw [splitOn, List.mem_singleton] at hpiece
    rw [hpiece]
    exact List.not_mem_nil
  | cons c text ih =>
    by_cases hc : c = separator
    · rw [splitOn, if_pos hc] at hpiece
      rcases List.mem_cons.1 hpiece with rfl | hlater
      · exact List.not_mem_nil
      · exact ih hlater
    · obtain ⟨first, pieces, hpieces⟩ := List.exists_cons_of_ne_nil (splitOn_ne_nil separator text)
      rw [splitOn_cons_of_ne hc hpieces] at hpiece
      rw [hpieces] at ih
      rcases List.mem_cons.1 hpiece with rfl | hlater
      · rw [List.mem_cons, not_or]
        exact ⟨Ne.symm hc, ih List.mem_cons_self⟩
      · exact ih (List.mem_cons_of_mem first hlater)

/-- Nothing is made up: the parts around a mark and the mark give the text back. -/
theorem eq_append_of_splitAt? {mark text first second : Text}
    (hsplit : splitAt? mark text = some (first, second)) : text = first ++ mark ++ second := by
  induction text generalizing first with
  | nil =>
    rw [splitAt?, Option.ite_none_right_eq_some] at hsplit
    obtain ⟨rfl, hparts⟩ := hsplit
    cases hparts
    rfl
  | cons c text ih =>
    rw [splitAt?] at hsplit
    split at hsplit
    next hbegins =>
      obtain ⟨rest, hrest⟩ := List.isPrefixOf_iff_prefix.1 hbegins
      rw [← hrest, List.drop_left] at hsplit
      cases hsplit
      exact hrest.symm
    next =>
      obtain ⟨⟨before, after⟩, hparts, heq⟩ := Option.map_eq_some_iff.1 hsplit
      cases heq
      rw [ih hparts]
      rfl

/-- What holds of the characters of the separator and of the pieces holds of those of the joined
text. -/
theorem forall_mem_intercalate {separator : Text} {pieces : List Text} {p : Char → Prop}
    (hseparator : ∀ c ∈ separator, p c) (hpieces : ∀ piece ∈ pieces, ∀ c ∈ piece, p c) :
    ∀ c ∈ separator.intercalate pieces, p c := by
  intro c hc
  induction pieces with
  | nil => simp at hc
  | cons piece pieces ih =>
    have hpiece := hpieces piece List.mem_cons_self
    cases pieces with
    | nil =>
      rw [List.intercalate_singleton] at hc
      exact hpiece c hc
    | cons next pieces =>
      rw [List.intercalate_cons_cons, List.mem_append, List.mem_append] at hc
      rcases hc with (hc | hc) | hc
      · exact hpiece c hc
      · exact hseparator c hc
      · exact ih (fun q hq => hpieces q (List.mem_cons_of_mem piece hq)) hc

theorem not_mem_intercalate {separator : Text} {pieces : List Text} {c : Char}
    (hseparator : c ∉ separator) (hpieces : ∀ piece ∈ pieces, c ∉ piece) :
    c ∉ separator.intercalate pieces := by
  intro hmem
  refine forall_mem_intercalate (p := (· ≠ c)) ?_ ?_ c hmem rfl
  · exact fun d hd => ne_of_mem_of_not_mem hd hseparator
  · exact fun piece hpiece d hd => ne_of_mem_of_not_mem hd (hpieces piece hpiece)

/-- A mark that begins nowhere earlier is where the text is split. -/
theorem splitAt?_append {mark before : Text} (after : Text)
    (hbefore : ∀ start, start ≠ [] → start <:+ before → ¬mark <+: start ++ (mark ++ after)) :
    splitAt? mark (before ++ (mark ++ after)) = some (before, after) := by
  induction before with
  | nil =>
    cases htext : mark ++ after with
    | nil =>
      obtain ⟨rfl, rfl⟩ := List.append_eq_nil_iff.1 htext
      rfl
    | cons c text =>
      have hbegins : mark.isPrefixOf (c :: text) = true := by
        rw [List.isPrefixOf_iff_prefix, ← htext]
        exact List.prefix_append mark after
      rw [List.nil_append, splitAt?, if_pos hbegins, ← htext, List.drop_left]
  | cons c before ih =>
    have hhere := hbefore (c :: before) (List.cons_ne_nil c before) (List.suffix_refl _)
    rw [List.cons_append, ← List.isPrefixOf_iff_prefix] at hhere
    rw [List.cons_append, splitAt?, if_neg hhere, ih, Option.map_some]
    intro start hne hstart
    exact hbefore start hne (hstart.trans (List.suffix_cons c before))

theorem splitAt?_eq_none {mark text : Text} (htext : ¬mark <:+: text) :
    splitAt? mark text = none := by
  induction text with
  | nil =>
    have hmark : mark ≠ [] := by
      rintro rfl
      exact htext (List.infix_refl [])
    rw [splitAt?, if_neg hmark]
  | cons c text ih =>
    rw [List.infix_cons_iff, not_or] at htext
    rw [splitAt?, if_neg (by simpa [List.isPrefixOf_iff_prefix] using htext.1), ih htext.2,
      Option.map_none]

theorem isSome_splitAt?_of_mem {c : Char} {text : Text} (hmem : c ∈ text) :
    (splitAt? [c] text).isSome = true := by
  induction text with
  | nil => exact absurd hmem List.not_mem_nil
  | cons d text ih =>
    rw [splitAt?]
    split
    · rfl
    next hdiffer =>
      have hne : c ≠ d := by
        rintro rfl
        exact hdiffer (by simp)
      rw [Option.isSome_map]
      exact ih (List.mem_of_ne_of_mem hne hmem)

end Text

end RoutingPolicy
