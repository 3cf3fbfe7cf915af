import Mathlib.Algebra.Ring.Nat
import RoutingPolicy.Proofs.Text.Numeral

/-!
# Hexadecimal numerals

What number a sequence of hexadecimal digits spells, in either case and with any zeros in front, is told
without reading it. Numbers that are filled up to a width have a digit for each power of sixteen, so
their texts are ordered as they are.
-/

namespace RoutingPolicy

namespace Text

/-- The digits, of which there may be none, make the number. -/
inductive Spells : Text → Nat → Prop
  | nil : Spells [] 0
  | snoc {text : Text} {n : Nat} {c : Char} {digit : Nat} (htext : Spells text n)
      (hdigit : digit < 16) (hc : c.toLower = Nat.digitChar digit) :
      Spells (text ++ [c]) (16 * n + digit)

/-! ### Digits -/

private theorem hexValue?_ascii : ∀ n < 128, ∀ digit < 16,
    hexValue? (Char.ofNat n) = some digit ↔ (Char.ofNat n).toLower = Nat.digitChar digit := by
  decide +kernel

theorem hexValue?_bounds {c : Char} {digit : Nat} (hc : hexValue? c = some digit) :
    digit < 16 ∧ c.toNat < 128 := by
  simp only [hexValue?, Char.le_def, UInt32.le_iff_toNat_le] at hc
  change (if 48 ≤ c.toNat ∧ c.toNat ≤ 57 then some (c.toNat - 48)
    else if 97 ≤ c.toNat ∧ c.toNat ≤ 102 then some (c.toNat - 97 + 10)
    else if 65 ≤ c.toNat ∧ c.toNat ≤ 70 then some (c.toNat - 65 + 10) else none) = some digit at hc
  split_ifs at hc <;> simp only [Option.some.injEq] at hc <;> omega

theorem toNat_lt_of_toLower {c : Char} {digit : Nat} (hdigit : digit < 16)
    (hc : c.toLower = Nat.digitChar digit) : c.toNat < 128 := by
  have hsmall : ∀ digit < 16, (Nat.digitChar digit).toNat < 128 := by decide
  have hlower := hsmall digit hdigit
  rw [← hc] at hlower
  unfold Char.toLower at hlower
  split at hlower
  next hcapital =>
    have hlast : c.toNat ≤ 90 := UInt32.le_iff_toNat_le.1 hcapital.2
    omega
  next => exact hlower

/-- The value of a digit is told by its lower-case form. -/
theorem hexValue?_eq_some_iff {c : Char} {digit : Nat} :
    hexValue? c = some digit ↔ digit < 16 ∧ c.toLower = Nat.digitChar digit := by
  constructor
  · intro hc
    obtain ⟨hdigit, hsmall⟩ := hexValue?_bounds hc
    rw [← Char.ofNat_toNat c] at hc ⊢
    exact ⟨hdigit, (hexValue?_ascii _ hsmall digit hdigit).1 hc⟩
  · rintro ⟨hdigit, hc⟩
    have hsmall := toNat_lt_of_toLower hdigit hc
    rw [← Char.ofNat_toNat c] at hc ⊢
    exact (hexValue?_ascii _ hsmall digit hdigit).2 hc

theorem hexValue?_eq_none_iff {c : Char} :
    hexValue? c = none ↔ ∀ digit < 16, c.toLower ≠ Nat.digitChar digit := by
  simp only [Option.eq_none_iff_forall_ne_some, ne_eq, hexValue?_eq_some_iff, not_and]

/-! ### Zeros in front -/

theorem spells_replicate (zeros : Nat) : Spells (List.replicate zeros '0') 0 := by
  induction zeros with
  | zero => exact .nil
  | succ zeros ih =>
    rw [List.replicate_succ']
    exact .snoc ih (Nat.zero_lt_succ 15) rfl

theorem Spells.eq_zero {n : Nat} (hnil : Spells [] n) : n = 0 := by
  generalize htext : ([] : Text) = text at hnil
  cases hnil with
  | nil => rfl
  | snoc => exact absurd htext.symm (by simp)

theorem Spells.replicate_append {text : Text} {n : Nat} (htext : Spells text n) (zeros : Nat) :
    Spells (List.replicate zeros '0' ++ text) n := by
  induction htext with
  | nil => simpa using spells_replicate zeros
  | snoc _ hdigit hc ih =>
    rw [← List.append_assoc]
    exact .snoc ih hdigit hc

theorem spells_toDigits (n : Nat) : Spells (Nat.toDigits 16 n) n := by
  induction n using Nat.strong_induction_on with
  | _ n ih =>
    have hlower : ∀ digit < 16, (Nat.digitChar digit).toLower = Nat.digitChar digit := by decide
    have hmod : n % 16 < 16 := Nat.mod_lt n (by decide)
    by_cases hn : n < 16
    · rw [Nat.toDigits_of_lt_base hn]
      simpa using Spells.nil.snoc hn (hlower n hn)
    · rw [Nat.toDigits_of_base_le (by decide) (by omega)]
      have hdigits := (ih (n / 16) (by omega)).snoc hmod (hlower _ hmod)
      rwa [Nat.div_add_mod] at hdigits

theorem spells_hexPadded (width n : Nat) : Spells (hexPadded width n) n :=
  (spells_toDigits n).replicate_append _

/-- A numeral has the digits of its number, in either case, behind zeros. -/
theorem Spells.exists_replicate {text : Text} {n : Nat} (htext : Spells text n) (hne : text ≠ []) :
    ∃ zeros, text.map Char.toLower = List.replicate zeros '0' ++ Nat.toDigits 16 n := by
  induction htext with
  | nil => exact absurd rfl hne
  | @snoc text n c digit htext hdigit hc ih =>
    rw [List.map_append, List.map_singleton, hc, ← Nat.toDigits_of_lt_base hdigit]
    by_cases htext_ne : text = []
    · subst htext_ne
      rw [htext.eq_zero]
      exact ⟨0, by simp⟩
    · obtain ⟨zeros, hzeros⟩ := ih htext_ne
      rw [hzeros]
      rcases Nat.eq_zero_or_pos n with rfl | hn
      · refine ⟨zeros + 1, ?_⟩
        rw [Nat.toDigits_zero, List.replicate_succ', Nat.mul_zero, Nat.zero_add]
      · refine ⟨zeros, ?_⟩
        rw [List.append_assoc, Nat.toDigits_append_toDigits (by decide) hn hdigit]

/-- One of two numerals is the other one with zeros in front, apart from the case of the letters. -/
def SameDigits (text other : Text) : Prop :=
  ∃ zeros, text.map Char.toLower = List.replicate zeros '0' ++ other ∨
    List.replicate zeros '0' ++ text.map Char.toLower = other

theorem Spells.sameDigits_hexPadded {text : Text} {n : Nat} (htext : Spells text n)
    (hne : text ≠ []) (width : Nat) : SameDigits text (hexPadded width n) := by
  obtain ⟨zeros, hzeros⟩ := htext.exists_replicate hne
  rw [SameDigits, hzeros, hexPadded]
  generalize width - (Nat.toDigits 16 n).length = fill
  rcases Nat.le_total fill zeros with hle | hle
  · refine ⟨zeros - fill, .inl ?_⟩
    rw [← List.append_assoc, List.replicate_append_replicate, Nat.sub_add_cancel hle]
  · refine ⟨fill - zeros, .inr ?_⟩
    rw [← List.append_assoc, List.replicate_append_replicate, Nat.sub_add_cancel hle]

/-! ### Numbers with a width -/

theorem hexPadded_one {n : Nat} (hn : n < 16) : hexPadded 1 n = [Nat.digitChar n] := by
  rw [hexPadded, Nat.toDigits_of_lt_base hn]
  rfl

theorem hexPadded_succ {width : Nat} (hwidth : 0 < width) (n : Nat) :
    hexPadded (width + 1) n = hexPadded width (n / 16) ++ [Nat.digitChar (n % 16)] := by
  by_cases hn : n < 16
  · rw [hexPadded, hexPadded, Nat.div_eq_of_lt hn, Nat.mod_eq_of_lt hn, Nat.toDigits_zero,
      Nat.toDigits_of_lt_base hn, List.length_singleton, List.length_singleton,
      ← List.replicate_succ', Nat.add_sub_cancel, Nat.sub_add_cancel hwidth]
  · rw [hexPadded, hexPadded, Nat.toDigits_of_base_le (by decide) (by omega : 16 ≤ n),
      List.length_append, List.length_singleton, Nat.add_sub_add_right, List.append_assoc]

theorem length_hexPadded {width n : Nat} (hwidth : 0 < width) (hn : n < 16 ^ width) :
    (hexPadded width n).length = width := by
  have hlength := (Nat.length_toDigits_le_iff (by decide : 1 < 16) hwidth).2 hn
  rw [hexPadded, List.length_append, List.length_replicate, Nat.sub_add_cancel hlength]

theorem forall_mem_hexPadded {p : Char → Prop} (hp : ∀ digit < 16, p (Nat.digitChar digit))
    (width n : Nat) : ∀ c ∈ hexPadded width n, p c := by
  intro c hc
  rcases List.mem_append.1 hc with hc | hc
  · rw [List.eq_of_mem_replicate hc]
    exact hp 0 (by decide)
  · exact forall_mem_toDigits (by decide) (by decide) hp hc

/-! ### Order -/

theorem compare_append {first second : List UInt8} (hlength : first.length = second.length)
    (others more : List UInt8) : compare (first ++ others) (second ++ more) =
      (compare first second).then (compare others more) := by
  induction first generalizing second with
  | nil =>
    obtain rfl := List.length_eq_zero_iff.1 hlength.symm
    rw [List.compare_nil_nil]
    rfl
  | cons byte first ih =>
    cases second with
    | nil => exact absurd hlength (Nat.succ_ne_zero _)
    | cons other second =>
      rw [List.cons_append, List.cons_append, List.compare_cons_cons, List.compare_cons_cons,
        ih (Nat.succ.inj hlength), Ordering.then_assoc]

theorem compare_div_mod (m n : Nat) :
    compare m n = (compare (m / 16) (n / 16)).then (compare (m % 16) (n % 16)) := by
  rcases Nat.lt_trichotomy (m / 16) (n / 16) with hlt | heq | hgt
  · rw [Nat.compare_eq_lt.2 hlt, Nat.compare_eq_lt.2 (by omega)]
    rfl
  · rw [Nat.compare_eq_eq.2 heq]
    rcases Nat.lt_trichotomy (m % 16) (n % 16) with hlt | hmod | hgt
    · rw [Nat.compare_eq_lt.2 hlt, Nat.compare_eq_lt.2 (by omega)]
      rfl
    · rw [Nat.compare_eq_eq.2 hmod, Nat.compare_eq_eq.2 (by omega)]
      rfl
    · rw [Nat.compare_eq_gt.2 hgt, Nat.compare_eq_gt.2 (by omega)]
      rfl
  · rw [Nat.compare_eq_gt.2 hgt, Nat.compare_eq_gt.2 (by omega)]
    rfl

/-- The bytes of the digits are ordered as the digits. -/
theorem compare_digit : ∀ m < 16, ∀ n < 16,
    compare (utf8 [Nat.digitChar m]) (utf8 [Nat.digitChar n]) = compare m n := by
  decide +kernel

theorem length_utf8_hexPadded {width n : Nat} (hwidth : 0 < width) (hn : n < 16 ^ width) :
    (utf8 (hexPadded width n)).length = width := by
  have hbytes : ∀ c ∈ hexPadded width n, (String.utf8EncodeChar c).length = 1 :=
    forall_mem_hexPadded (by decide) width n
  rw [utf8, List.length_flatMap, List.map_congr_left hbytes, List.map_const',
    List.sum_replicate_nat, length_hexPadded hwidth hn, Nat.mul_one]

/-- Numbers that are filled up to one width are ordered as the bytes of their texts. -/
theorem compare_hexPadded {width m n : Nat} (hwidth : 0 < width) (hm : m < 16 ^ width)
    (hn : n < 16 ^ width) :
    compare (utf8 (hexPadded width m)) (utf8 (hexPadded width n)) = compare m n := by
  induction width, hwidth using Nat.le_induction generalizing m n with
  | base =>
    rw [Nat.succ_eq_add_one, Nat.zero_add, Nat.pow_one] at hm hn
    rw [hexPadded_one hm, hexPadded_one hn, compare_digit m hm n hn]
  | succ width hwidth ih =>
    have hm' : m / 16 < 16 ^ width := Nat.div_lt_of_lt_mul (by rwa [Nat.mul_comm, ← Nat.pow_succ])
    have hn' : n / 16 < 16 ^ width := Nat.div_lt_of_lt_mul (by rwa [Nat.mul_comm, ← Nat.pow_succ])
    rw [hexPadded_succ hwidth, hexPadded_succ hwidth, utf8_append, utf8_append, compare_append,
      ih hm' hn', compare_digit _ (Nat.mod_lt _ (by decide)) _ (Nat.mod_lt _ (by decide)),
      ← compare_div_mod]
    rw [length_utf8_hexPadded hwidth hm', length_utf8_hexPadded hwidth hn']

end Text

end RoutingPolicy
