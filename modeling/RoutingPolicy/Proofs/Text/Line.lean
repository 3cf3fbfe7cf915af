import RoutingPolicy.Proofs.Text.Split
import RoutingPolicy.Text.Upper

/-!
# Lines

Texts that are joined as lines stay lines of their own as long as there is no line end in them. Upper
case brings in nothing but letters and accents, so it does not add lines.
-/

namespace RoutingPolicy

namespace Text

def lineEnds (text : Text) : Nat := text.count '\n'

@[simp] theorem lineEnds_append (first second : Text) :
    lineEnds (first ++ second) = lineEnds first + lineEnds second := List.count_append

theorem lineEnds_eq_zero_iff {text : Text} : lineEnds text = 0 ↔ '\n' ∉ text := List.count_eq_zero

/-- There is a line end between two lines, apart from those that are in the lines. -/
theorem lineEnds_intercalate {lines : List Text} (hne : lines ≠ []) :
    lineEnds (['\n'].intercalate lines) + 1 = lines.length + lineEnds lines.flatten := by
  induction lines with
  | nil => exact absurd rfl hne
  | cons line lines ih =>
    cases lines with
    | nil =>
      rw [List.intercalate_singleton, List.flatten_singleton, List.length_singleton, Nat.add_comm]
    | cons next lines =>
      have hlater := ih (List.cons_ne_nil next lines)
      have hbetween : lineEnds ['\n'] = 1 := by decide
      rw [List.intercalate_cons_cons, lineEnds_append, lineEnds_append, hbetween, List.length_cons,
        List.flatten_cons, lineEnds_append]
      omega

/-- Two ways to write items have as many line ends, if they have as many for each item. -/
theorem lineEnds_flatMap_congr {α : Type} {items : List α} {first second : α → List Text}
    (hitems : ∀ item ∈ items, lineEnds (first item).flatten = lineEnds (second item).flatten) :
    lineEnds (items.flatMap first).flatten = lineEnds (items.flatMap second).flatten := by
  induction items with
  | nil => rfl
  | cons item items ih =>
    obtain ⟨hitem, hitems⟩ := List.forall_mem_cons.1 hitems
    rw [List.flatMap_cons, List.flatMap_cons, List.flatten_append, List.flatten_append,
      lineEnds_append, lineEnds_append, hitem, ih hitems]

theorem lineEnds_map_congr {α : Type} {items : List α} {first second : α → Text}
    (hitems : ∀ item ∈ items, lineEnds (first item) = lineEnds (second item)) :
    lineEnds (items.map first).flatten = lineEnds (items.map second).flatten := by
  rw [List.map_eq_flatMap, List.map_eq_flatMap]
  refine lineEnds_flatMap_congr fun item hitem => ?_
  rw [List.flatten_singleton, List.flatten_singleton, hitems item hitem]

/-! ### Upper case -/

theorem le_of_mem_capitals : (∀ run ∈ capitalRuns, 0x41 ≤ run.target) ∧
    ∀ entry ∈ longCapitals, ∀ code ∈ entry.2, 0x41 ≤ code := by
  decide +kernel

/-- The character of a code is that code, or it is zero. -/
theorem toNat_ofNat_cases (code : Nat) :
    (Char.ofNat code).toNat = code ∨ (Char.ofNat code).toNat = 0 := by
  by_cases hvalid : code.isValidChar
  · exact .inl (by rw [Char.ofNat, dif_pos hvalid]; rfl)
  · exact .inr (by rw [Char.ofNat, dif_neg hvalid]; rfl)

theorem eq_of_mem_upperChar {c d : Char} (hpos : 0 < c.toNat) (hlt : c.toNat < 0x41)
    (hmem : c ∈ upperChar d) : c = d := by
  have hcode : ∀ code, 0x41 ≤ code → c ≠ Char.ofNat code := by
    rintro code hcode rfl
    rcases toNat_ofNat_cases code with htoNat | htoNat <;> omega
  obtain ⟨hruns, hlong⟩ := le_of_mem_capitals
  unfold upperChar at hmem
  split at hmem
  next run hrun =>
    have htarget := hruns run (List.mem_of_find?_eq_some hrun)
    exact absurd (List.mem_singleton.1 hmem) (hcode _ (by omega))
  next =>
    split at hmem
    next codes hcodes =>
      obtain ⟨code, hmem, heq⟩ := List.mem_map.1 hmem
      obtain ⟨before, after, hentry, -⟩ := List.lookup_eq_some_iff.1 hcodes
      have hcapital := hlong (d.toNat, codes) (by rw [hentry]; simp) code hmem
      exact absurd heq.symm (hcode code hcapital)
    next => exact List.mem_singleton.1 hmem

/-- A character in front of the capital letters stands in the upper case of a text only if it stands
in the text. -/
theorem mem_of_mem_upper {c : Char} (hpos : 0 < c.toNat) (hlt : c.toNat < 0x41) {text : Text}
    (hmem : c ∈ upper text) : c ∈ text := by
  obtain ⟨d, hd, hmem⟩ := List.mem_flatMap.1 hmem
  rwa [eq_of_mem_upperChar hpos hlt hmem]

theorem lineEnd_not_mem_upper {text : Text} (htext : '\n' ∉ text) : '\n' ∉ upper text :=
  fun hmem => htext (mem_of_mem_upper (by decide) (by decide) hmem)

end Text

end RoutingPolicy
