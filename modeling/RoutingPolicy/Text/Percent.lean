import RoutingPolicy.Text.Numeral

/-!
# Percent-encoding

A value inside the query part of a URL is written byte by byte: letters, digits and `-`, `_`, `.`,
`~` stand for themselves, every other byte is a percent sign and two hexadecimal digits. Decoding
undoes encoding on any list of bytes.
-/

namespace RoutingPolicy

namespace Text

/-- Whether a byte stands for itself: letters, digits and the marks `-`, `_`, `.`, `~`. -/
def isUnreserved (b : UInt8) : Bool :=
  let c := Char.ofNat b.toNat
  c.isAlphanum || c == '-' || c == '_' || c == '.' || c == '~'

/-- The hexadecimal digit of a number below 16, with capital letters. -/
def hexCapital (n : Nat) : Char := (Nat.digitChar n).toUpper

def percentByte (b : UInt8) : Text :=
  if isUnreserved b then [Char.ofNat b.toNat]
  else ['%', hexCapital (b.toNat / 16), hexCapital (b.toNat % 16)]

def percentEncode (text : Text) : Text := (utf8 text).flatMap percentByte

/-- The bytes that an encoded value stands for; a percent sign needs two digits after it, and a
character that stands for itself is a single byte. -/
def percentBytes? : Text → Option (List UInt8)
  | [] => some []
  | '%' :: high :: low :: rest => do
    let high ← hexValue? high
    let low ← hexValue? low
    let bytes ← percentBytes? rest
    return UInt8.ofNat (16 * high + low) :: bytes
  | c :: rest =>
    if c = '%' ∨ 128 ≤ c.toNat then none
    else (percentBytes? rest).map (UInt8.ofNat c.toNat :: ·)

theorem hexValue?_hexCapital {n : Nat} (h : n < 16) : hexValue? (hexCapital n) = some n := by
  revert h
  revert n
  decide

private theorem unreserved_byte {b : UInt8} (h : isUnreserved b = true) :
    Char.ofNat b.toNat ≠ '%' ∧ (Char.ofNat b.toNat).toNat < 128 ∧
      UInt8.ofNat (Char.ofNat b.toNat).toNat = b := by
  have all : ∀ n : Fin 256, isUnreserved (UInt8.ofNat n) = true →
      Char.ofNat (UInt8.ofNat n).toNat ≠ '%' ∧ (Char.ofNat (UInt8.ofNat n).toNat).toNat < 128 ∧
        UInt8.ofNat (Char.ofNat (UInt8.ofNat n).toNat).toNat = UInt8.ofNat n := by
    decide +kernel
  have := all ⟨b.toNat, b.toNat_lt⟩
  simpa using this (by simpa using h)

theorem percentBytes?_percentByte (b : UInt8) (rest : Text) :
    percentBytes? (percentByte b ++ rest) = (percentBytes? rest).map (b :: ·) := by
  unfold percentByte
  split
  next h =>
    obtain ⟨hne, hlt, heq⟩ := unreserved_byte h
    rw [List.cons_append, List.nil_append]
    cases rest with
    | nil => simp [percentBytes?, hne, Nat.not_le.2 hlt, heq]
    | cons d rest =>
      rw [percentBytes?]
      · simp [hne, Nat.not_le.2 hlt, heq]
      · intro high low rest hc
        exact absurd hc hne
  next =>
    have hb := b.toNat_lt
    simp only [List.cons_append, List.nil_append, percentBytes?]
    rw [hexValue?_hexCapital (by omega), hexValue?_hexCapital (by omega)]
    cases percentBytes? rest with
    | none => rfl
    | some bytes =>
      change some (UInt8.ofNat (16 * (b.toNat / 16) + b.toNat % 16) :: bytes) = _
      rw [Nat.div_add_mod, UInt8.ofNat_toNat]
      rfl

/-- Every text is read back from its encoded form as its UTF-8 bytes. -/
theorem percentBytes?_percentEncode (text : Text) :
    percentBytes? (percentEncode text) = some (utf8 text) := by
  unfold percentEncode
  induction utf8 text with
  | nil => rfl
  | cons b bytes ih => rw [List.flatMap_cons, percentBytes?_percentByte, ih]; rfl

end Text

end RoutingPolicy
