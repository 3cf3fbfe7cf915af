import Mathlib.Data.Nat.Basic
import RoutingPolicy.Text.Numeral

/-!
# Written numbers are read back

A number in digits of a base up to sixteen is read as itself, and its digits are characters that can
stand in any word.
-/

namespace RoutingPolicy

namespace Text

variable {base : Nat}

theorem digitValue?_digitChar (hle : base ≤ 16) {d : Nat} (hd : d < base) :
    digitValue? base (Nat.digitChar d) = some d := by
  have hhex : ∀ d < 16, hexValue? (Nat.digitChar d) = some d := by decide
  rw [digitValue?, hhex d (by omega), Option.filter_some, if_pos (by simpa using hd)]

private theorem mapM_toDigits (hlt : 1 < base) (hle : base ≤ 16) (n : Nat) :
    ∃ digits, (Nat.toDigits base n).mapM (digitValue? base) = some digits ∧
      digits.foldl (fun n d => base * n + d) 0 = n := by
  induction n using Nat.strong_induction_on with
  | _ n ih =>
    rw [Nat.toDigits_eq_if hlt]
    by_cases hn : n < base
    · refine ⟨[n], ?_, by simp⟩
      rw [if_pos hn, List.mapM_cons, digitValue?_digitChar hle hn]
      rfl
    · have hdiv : n / base < n := Nat.div_lt_self (by omega) hlt
      have hmod : n % base < base := Nat.mod_lt n (by omega)
      obtain ⟨digits, hread, hvalue⟩ := ih (n / base) hdiv
      refine ⟨digits ++ [n % base], ?_, ?_⟩
      · rw [if_neg hn, List.mapM_append, hread, List.mapM_cons, digitValue?_digitChar hle hmod]
        rfl
      · rw [List.foldl_append, hvalue]
        exact Nat.div_add_mod n base

theorem number?_toDigits (hlt : 1 < base) (hle : base ≤ 16) (n : Nat) :
    number? base (Nat.toDigits base n) = some n := by
  obtain ⟨digits, hread, hvalue⟩ := mapM_toDigits hlt hle n
  rw [number?, if_neg Nat.toDigits_ne_nil, hread, Option.map_some, hvalue]

theorem exists_digit_of_mem_toDigits (hlt : 1 < base) {n : Nat} {c : Char}
    (hc : c ∈ Nat.toDigits base n) : ∃ d < base, c = Nat.digitChar d := by
  induction n using Nat.strong_induction_on with
  | _ n ih =>
    rw [Nat.toDigits_eq_if hlt] at hc
    by_cases hn : n < base
    · rw [if_pos hn, List.mem_singleton] at hc
      exact ⟨n, hn, hc⟩
    · rw [if_neg hn, List.mem_append, List.mem_singleton] at hc
      rcases hc with hc | hc
      · exact ih (n / base) (Nat.div_lt_self (by omega) hlt) hc
      · exact ⟨n % base, Nat.mod_lt n (by omega), hc⟩

/-- Whatever holds of the sixteen digits holds of all characters of a written number. -/
theorem forall_mem_toDigits (hlt : 1 < base) (hle : base ≤ 16) {p : Char → Prop}
    (hp : ∀ d < 16, p (Nat.digitChar d)) {n : Nat} {c : Char} (hc : c ∈ Nat.toDigits base n) :
    p c := by
  obtain ⟨d, hd, rfl⟩ := exists_digit_of_mem_toDigits hlt hc
  exact hp d (by omega)

theorem number?_eq_none {text : Text} {c : Char} (hmem : c ∈ text)
    (hc : digitValue? base c = none) : number? base text = none := by
  have hread : text.mapM (digitValue? base) = none := by
    induction text with
    | nil => simp at hmem
    | cons d text ih =>
      rw [List.mapM_cons]
      rcases List.mem_cons.1 hmem with rfl | hrest
      · rw [hc]; rfl
      · cases digitValue? base d with
        | none => rfl
        | some value => rw [ih hrest]; rfl
  rw [number?, if_neg (List.ne_nil_of_mem hmem), hread, Option.map_none]

end Text

end RoutingPolicy
