import RoutingPolicy.Text.Basic

/-!
# Checked slices

The readers cut a text at byte positions that they have computed. Such a cut is only possible between
two characters. `slice?` is the cut as a partial operation: it gives nothing when a position is beyond
the end or inside a character, or when the end precedes the start.
-/

namespace RoutingPolicy

namespace Text

/-- Whether a byte position is between two characters of a text or at one of its ends. -/
def IsBoundary (n : Nat) (text : Text) : Prop := byteSize (takeBytes n text) = n

instance (n : Nat) (text : Text) : Decidable (IsBoundary n text) :=
  inferInstanceAs (Decidable (byteSize (takeBytes n text) = n))

/-- The text between two byte positions, if they are in order and the text can be cut at both. -/
def slice? (start stop : Nat) (text : Text) : Option Text :=
  if start ≤ stop ∧ IsBoundary start text ∧ IsBoundary stop text then
    some (dropBytes start (takeBytes stop text))
  else none

def sliceTo? (stop : Nat) (text : Text) : Option Text := slice? 0 stop text

def sliceFrom? (start : Nat) (text : Text) : Option Text := slice? start (byteSize text) text

variable {start stop n : Nat} {text : Text}

theorem isBoundary_iff :
    IsBoundary n text ↔ ∃ before after, text = before ++ after ∧ byteSize before = n := by
  constructor
  · intro h
    exact ⟨takeBytes n text, dropBytes n text, (takeBytes_append_dropBytes n text).symm, h⟩
  · rintro ⟨before, after, rfl, rfl⟩
    rw [IsBoundary, takeBytes_byteSize]

theorem isBoundary_byteSize (before after : Text) : IsBoundary (byteSize before) (before ++ after) :=
  isBoundary_iff.2 ⟨before, after, rfl, rfl⟩

theorem isBoundary_end (text : Text) : IsBoundary (byteSize text) text := by
  have h := isBoundary_byteSize text []
  rwa [List.append_nil] at h

theorem IsBoundary.le_byteSize (h : IsBoundary n text) : n ≤ byteSize text := by
  obtain ⟨before, after, rfl, rfl⟩ := isBoundary_iff.1 h
  rw [byteSize_append]
  exact Nat.le_add_right _ _

theorem eq_nil_of_byteSize_eq_zero (h : byteSize text = 0) : text = [] := by
  cases text with
  | nil => rfl
  | cons c text =>
    have hsize := c.utf8Size_pos
    rw [byteSize_cons] at h
    omega

/-- Of two cuts of a text the one at the lower position leaves a first part of the other's. -/
theorem exists_append_of_byteSize_le {first after second rest : Text}
    (h : first ++ after = second ++ rest) (hle : byteSize first ≤ byteSize second) :
    ∃ part, second = first ++ part := by
  rcases List.append_eq_append_iff.1 h with ⟨part, hpart, -⟩ | ⟨part, hpart, -⟩
  · exact ⟨part, hpart⟩
  · rw [hpart, byteSize_append] at hle
    have hnil : part = [] := eq_nil_of_byteSize_eq_zero (by omega)
    refine ⟨[], ?_⟩
    rw [hpart, hnil, List.append_nil, List.append_nil]

/-- A slice is what stands between the text before its start and the text after its end. -/
theorem slice?_eq_some_iff {part : Text} :
    slice? start stop text = some part ↔ ∃ before after,
      text = before ++ part ++ after ∧ byteSize before = start ∧ byteSize (before ++ part) = stop := by
  constructor
  · intro h
    rw [slice?, Option.ite_none_right_eq_some] at h
    obtain ⟨⟨hle, hstart, hstop⟩, hpart⟩ := h
    obtain ⟨first, after, rfl, rfl⟩ := isBoundary_iff.1 hstart
    obtain ⟨second, rest, htext, rfl⟩ := isBoundary_iff.1 hstop
    obtain ⟨between, rfl⟩ := exists_append_of_byteSize_le htext hle
    rw [htext, takeBytes_byteSize, dropBytes_byteSize] at hpart
    obtain rfl := Option.some.inj hpart
    exact ⟨first, rest, htext, rfl, rfl⟩
  · rintro ⟨before, after, rfl, rfl, rfl⟩
    have hstart : IsBoundary (byteSize before) (before ++ part ++ after) := by
      rw [List.append_assoc]
      exact isBoundary_byteSize before _
    rw [slice?, if_pos ⟨by rw [byteSize_append]; omega, hstart, isBoundary_byteSize _ after⟩,
      takeBytes_byteSize, dropBytes_byteSize]

theorem slice?_append (before part after : Text) :
    slice? (byteSize before) (byteSize (before ++ part)) (before ++ part ++ after) = some part :=
  slice?_eq_some_iff.2 ⟨before, after, rfl, rfl, rfl⟩

theorem slice?_eq_some (hle : start ≤ stop) (hstart : IsBoundary start text)
    (hstop : IsBoundary stop text) :
    slice? start stop text = some (dropBytes start (takeBytes stop text)) :=
  if_pos ⟨hle, hstart, hstop⟩

theorem sliceTo?_eq_some_iff {before : Text} :
    sliceTo? stop text = some before ↔ ∃ after, text = before ++ after ∧ byteSize before = stop := by
  rw [sliceTo?, slice?_eq_some_iff]
  constructor
  · rintro ⟨first, after, htext, hfirst, hstop⟩
    obtain rfl := eq_nil_of_byteSize_eq_zero hfirst
    exact ⟨after, htext, hstop⟩
  · rintro ⟨after, htext, hstop⟩
    exact ⟨[], after, htext, rfl, hstop⟩

theorem takeBytes_end (text : Text) : takeBytes (byteSize text) text = text := by
  have h := takeBytes_byteSize text []
  rwa [List.append_nil] at h

theorem sliceTo?_of_isBoundary (h : IsBoundary n text) : sliceTo? n text = some (takeBytes n text) :=
  sliceTo?_eq_some_iff.2 ⟨dropBytes n text, (takeBytes_append_dropBytes n text).symm, h⟩

theorem sliceFrom?_of_isBoundary (h : IsBoundary n text) :
    sliceFrom? n text = some (dropBytes n text) := by
  rw [sliceFrom?, slice?_eq_some h.le_byteSize h (isBoundary_end text), takeBytes_end]

theorem sliceFrom?_append (before after : Text) :
    sliceFrom? (byteSize before) (before ++ after) = some after := by
  rw [sliceFrom?_of_isBoundary (isBoundary_byteSize before after), dropBytes_byteSize]

/-- Neither a position inside a character nor one behind the end can be cut at. -/
example : sliceFrom? 1 "äb".toList = none ∧ sliceFrom? 2 "äb".toList = some ['b'] ∧
    sliceTo? 4 "äb".toList = none ∧ slice? 3 2 "äb".toList = none := by decide

/-! ### Letter case -/

/-- Only a small letter has another form, which stands 32 places in front of it. -/
theorem toUpper_cases (c : Char) : c.toUpper = c ∨
    97 ≤ c.toNat ∧ c.toNat ≤ 122 ∧ c.toUpper.toNat + 32 = c.toNat := by
  by_cases hlower : 'a'.val ≤ c.val ∧ c.val ≤ 'z'.val
  · have hrange : 97 ≤ c.val ∧ c.val ≤ 122 := hlower
    have hval : c.toUpper.val = c.val + ('A'.val - 'a'.val) := by
      delta Char.toUpper
      rw [dif_pos hlower]
    have hshift : 'A'.val - 'a'.val = 65 - 97 := rfl
    have hback : c.toUpper.val + 32 = c.val := by grind
    have hcapital : c.toUpper.val ≤ 90 := by grind
    rw [UInt32.le_iff_toNat_le] at hcapital
    refine .inr ⟨hrange.1, hrange.2, ?_⟩
    change c.toUpper.val.toNat + 32 = c.val.toNat
    rw [← hback, UInt32.toNat_add, Nat.mod_eq_of_lt]
    · rfl
    · change c.toUpper.val.toNat + 32 < 2 ^ 32
      exact Nat.lt_of_le_of_lt (Nat.add_le_add_right hcapital 32) (by decide)
  · exact .inl (dif_neg hlower)

/-- A letter has one byte in either case. -/
theorem utf8Size_toUpper (c : Char) : c.toUpper.utf8Size = c.utf8Size := by
  rcases toUpper_cases c with hsame | ⟨_, hhigh, hupper⟩
  · rw [hsame]
  · have hc : c.val ≤ 127 := UInt32.le_iff_toNat_le.2 (Nat.le_trans hhigh (by decide))
    have hcapital : c.toUpper.val ≤ 127 := UInt32.le_iff_toNat_le.2 (by
      change c.toUpper.toNat ≤ 127
      omega)
    rw [Char.utf8Size_eq_one_iff.2 hc, Char.utf8Size_eq_one_iff.2 hcapital]

theorem byteSize_map_toUpper (text : Text) : byteSize (text.map Char.toUpper) = byteSize text := by
  induction text with
  | nil => rfl
  | cons c text ih => rw [List.map_cons, byteSize_cons, byteSize_cons, utf8Size_toUpper, ih]

theorem byteSize_of_sameLetters {a b : Text} (h : sameLetters a b = true) :
    byteSize a = byteSize b := by
  have hupper : a.map Char.toUpper = b.map Char.toUpper := beq_iff_eq.1 h
  rw [← byteSize_map_toUpper a, hupper, byteSize_map_toUpper]

theorem length_of_sameLetters {a b : Text} (h : sameLetters a b = true) : a.length = b.length := by
  have hupper : a.map Char.toUpper = b.map Char.toUpper := beq_iff_eq.1 h
  rw [← List.length_map Char.toUpper, hupper, List.length_map]

end Text

end RoutingPolicy
