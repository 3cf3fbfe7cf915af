import Mathlib.Data.List.Induction
import RoutingPolicy.Filter.Fingerprint
import RoutingPolicy.Proofs.Text.Hexadecimal

/-!
# Fingerprints in text

A fingerprint is written with one digit for each power of sixteen, so its text is read back and sorts as
the fingerprint does. What reading gives for any other text is told by a relation: a number that fits, or
the first character from the left that cannot be taken.
-/

namespace RoutingPolicy

open Text

namespace Fingerprint

/-- A text without one plus sign in front. -/
def unsigned : Text → Text
  | '+' :: digits => digits
  | text => text

/-- What a text gives. The characters behind the sign are taken from the left as long as they are digits
of a number below `2 ^ 64`. -/
inductive Reads : Text → Except ReadError Fingerprint → Prop
  | empty : Reads [] (.error .empty)
  | sign : Reads ['+'] (.error .invalidDigit)
  | number {text : Text} {fingerprint : Fingerprint} (hne : unsigned text ≠ [])
      (hdigits : Spells (unsigned text) fingerprint.value.toNat) : Reads text (.ok fingerprint)
  | invalidDigit {text before after : Text} {c : Char} {n : Nat}
      (htext : unsigned text = before ++ c :: after) (hbefore : Spells before n) (hn : n < 2 ^ 64)
      (hc : ∀ digit < 16, c.toLower ≠ Nat.digitChar digit) : Reads text (.error .invalidDigit)
  | overflow {text before after : Text} {c : Char} {n digit : Nat}
      (htext : unsigned text = before ++ c :: after) (hbefore : Spells before n) (hn : n < 2 ^ 64)
      (hdigit : digit < 16) (hc : c.toLower = Nat.digitChar digit)
      (hoverflow : 2 ^ 64 ≤ 16 * n + digit) : Reads text (.error .overflow)

/-! ### Reading -/

theorem unsigned_ne_nil {text : Text} (hempty : text ≠ []) (hsign : text ≠ ['+']) :
    unsigned text ≠ [] := by
  unfold unsigned
  split
  next digits => exact fun hdigits => hsign (congrArg _ hdigits)
  next => exact hempty

theorem read_of_unsigned {text : Text} (hne : unsigned text ≠ []) :
    read text = (readDigits 0 (unsigned text)).map fun n => ⟨UInt64.ofNat n⟩ := by
  unfold read
  split
  next => exact absurd rfl hne
  next => exact absurd rfl hne
  next => rfl
  next hempty hsign hplus =>
    unfold unsigned
    split
    next digits => exact absurd rfl (hplus digits)
    next => rfl

theorem readDigits_cons (n : Nat) (c : Char) (text : Text) : readDigits n (c :: text) =
    match hexValue? c with
    | none => .error .invalidDigit
    | some digit =>
      if n * 16 + digit < 2 ^ 64 then readDigits (n * 16 + digit) text else .error .overflow :=
  rfl

/-- Digits of a number that fits are passed. -/
theorem readDigits_append {before : Text} {n : Nat} (hbefore : Spells before n) (hn : n < 2 ^ 64)
    (after : Text) : readDigits 0 (before ++ after) = readDigits n after := by
  induction hbefore generalizing after with
  | nil => rfl
  | @snoc before n c digit _ hdigit hc ih =>
    have hvalue := hexValue?_eq_some_iff.2 ⟨hdigit, hc⟩
    rw [Nat.mul_comm] at hn ⊢
    rw [List.append_assoc, ih (by omega), List.singleton_append, readDigits_cons, hvalue]
    exact if_pos hn

theorem read_of_reads {text : Text} {result : Except ReadError Fingerprint}
    (hreads : Reads text result) : read text = result := by
  cases hreads with
  | empty => rfl
  | sign => rfl
  | @number _ fingerprint hne hdigits =>
    have hvalue := readDigits_append hdigits (UInt64.toNat_lt _) []
    rw [List.append_nil] at hvalue
    rw [read_of_unsigned hne, hvalue]
    show Except.ok (Fingerprint.mk (UInt64.ofNat fingerprint.value.toNat)) = _
    rw [UInt64.ofNat_toNat]
  | invalidDigit htext hbefore hn hc =>
    rw [read_of_unsigned (by simp [htext]), htext, readDigits_append hbefore hn, readDigits_cons,
      hexValue?_eq_none_iff.2 hc]
    rfl
  | overflow htext hbefore hn hdigit hc hoverflow =>
    rw [Nat.mul_comm] at hoverflow
    rw [read_of_unsigned (by simp [htext]), htext, readDigits_append hbefore hn, readDigits_cons,
      hexValue?_eq_some_iff.2 ⟨hdigit, hc⟩]
    simp only [if_neg (Nat.not_lt.2 hoverflow)]
    rfl

/-- A text spells a number that fits, or it has a first character that cannot be taken. -/
theorem spells_or_stops (text : Text) :
    (∃ n, Spells text n ∧ n < 2 ^ 64) ∨
    ∃ before c after n, text = before ++ c :: after ∧ Spells before n ∧ n < 2 ^ 64 ∧
      ∀ digit < 16, c.toLower = Nat.digitChar digit → 2 ^ 64 ≤ 16 * n + digit := by
  induction text using List.reverseRecOn with
  | nil => exact .inl ⟨0, .nil, by decide⟩
  | append_singleton text c ih =>
    obtain ⟨n, htext, hn⟩ | ⟨before, stop, after, n, rfl, hstop⟩ := ih
    · by_cases htaken : ∃ digit < 16, c.toLower = Nat.digitChar digit ∧ 16 * n + digit < 2 ^ 64
      · obtain ⟨digit, hdigit, hc, hfits⟩ := htaken
        exact .inl ⟨_, htext.snoc hdigit hc, hfits⟩
      · refine .inr ⟨text, c, [], n, rfl, htext, hn, fun digit hdigit hc => ?_⟩
        exact Nat.not_lt.1 fun hfits => htaken ⟨digit, hdigit, hc, hfits⟩
    · exact .inr ⟨before, stop, after ++ [c], n, by simp, hstop⟩

theorem exists_reads (text : Text) : ∃ result, Reads text result := by
  by_cases hempty : text = []
  · subst hempty
    exact ⟨_, .empty⟩
  by_cases hsign : text = ['+']
  · subst hsign
    exact ⟨_, .sign⟩
  obtain ⟨n, hdigits, hn⟩ | ⟨before, c, after, n, htext, hbefore, hn, hstop⟩ :=
    spells_or_stops (unsigned text)
  · refine ⟨.ok ⟨UInt64.ofNat n⟩, .number (unsigned_ne_nil hempty hsign) ?_⟩
    rwa [UInt64.toNat_ofNat_of_lt' hn]
  · by_cases hc : ∃ digit < 16, c.toLower = Nat.digitChar digit
    · obtain ⟨digit, hdigit, hc⟩ := hc
      exact ⟨_, .overflow htext hbefore hn hdigit hc (hstop digit hdigit hc)⟩
    · refine ⟨_, .invalidDigit htext hbefore hn fun digit hdigit hsame => ?_⟩
      exact hc ⟨digit, hdigit, hsame⟩

theorem read_eq_iff_reads {text : Text} {result : Except ReadError Fingerprint} :
    read text = result ↔ Reads text result := by
  refine ⟨?_, read_of_reads⟩
  rintro rfl
  obtain ⟨result, hreads⟩ := exists_reads text
  rwa [read_of_reads hreads]

/-! ### Writing -/

theorem value_lt (fingerprint : Fingerprint) : fingerprint.value.toNat < 16 ^ 16 :=
  fingerprint.value.toNat_lt

theorem length_toText (fingerprint : Fingerprint) : fingerprint.toText.length = 16 :=
  length_hexPadded (by decide) fingerprint.value_lt

theorem unsigned_toText (fingerprint : Fingerprint) :
    unsigned fingerprint.toText = fingerprint.toText := by
  have hplus : ∀ c ∈ fingerprint.toText, c ≠ '+' := forall_mem_hexPadded (by decide) 16 _
  unfold unsigned
  split
  next digits htext => exact absurd rfl (hplus '+' (by rw [htext]; exact List.mem_cons_self))
  next => rfl

theorem read_toText (fingerprint : Fingerprint) : read fingerprint.toText = .ok fingerprint := by
  refine read_of_reads (.number ?_ ?_)
  · rw [unsigned_toText, ← List.length_pos_iff, length_toText]
    decide
  · rw [unsigned_toText]
    exact spells_hexPadded 16 _

theorem toText_injective {one two : Fingerprint} (htext : one.toText = two.toText) : one = two := by
  have hread := read_toText one
  rw [htext, read_toText] at hread
  exact (Except.ok.inj hread).symm

theorem compare_value (one two : Fingerprint) :
    compare one two = compare one.value.toNat two.value.toNat := by
  change compare one.value two.value = _
  rcases Nat.lt_trichotomy one.value.toNat two.value.toNat with hlt | heq | hgt
  · rw [Nat.compare_eq_lt.2 hlt, Std.compare_eq_lt, UInt64.lt_iff_toNat_lt]
    exact hlt
  · rw [Nat.compare_eq_eq.2 heq, UInt64.toNat_inj.1 heq]
    exact Std.ReflCmp.compare_self
  · rw [Nat.compare_eq_gt.2 hgt, Std.compare_eq_gt, UInt64.lt_iff_toNat_lt]
    exact hgt

/-- Every fingerprint is written with sixteen digits in lower case, is read back, and sorts as the bytes
of its text. A text is read as the relation says: the digits of a number, with any zeros in front and in
either case, are read as the fingerprint with these digits, and everything else gives an error. -/
theorem toText_and_read :
    (∀ fingerprint : Fingerprint, fingerprint.toText.length = 16 ∧
      (∀ c ∈ fingerprint.toText, c ∈ "0123456789abcdef".toList) ∧
      read fingerprint.toText = .ok fingerprint) ∧
    (∀ one two : Fingerprint, compare one two = compare (utf8 one.toText) (utf8 two.toText)) ∧
    (∀ text result, read text = result ↔ Reads text result) ∧
    ∀ text fingerprint, read text = .ok fingerprint →
      SameDigits (unsigned text) fingerprint.toText := by
  refine ⟨fun fingerprint => ⟨fingerprint.length_toText, ?_, fingerprint.read_toText⟩,
    fun one two => ?_, fun _ _ => read_eq_iff_reads, fun text fingerprint hread => ?_⟩
  · exact forall_mem_hexPadded (by decide) 16 _
  · rw [compare_value, toText, toText, compare_hexPadded (by decide) one.value_lt two.value_lt]
  · cases read_eq_iff_reads.1 hread with
    | number hne hdigits => exact hdigits.sameDigits_hexPadded hne 16

/-- Digits of either case behind a sign and a zero. -/
theorem toText_and_read_signed :
    read "+0aB".toList = .ok ⟨0xAB⟩ ∧ SameDigits "0aB".toList (toText ⟨0xAB⟩) := by
  have hread : read "+0aB".toList = .ok ⟨0xAB⟩ := by rfl
  exact ⟨hread, toText_and_read.2.2.2 _ _ hread⟩

end Fingerprint

end RoutingPolicy
