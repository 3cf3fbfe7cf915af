import RoutingPolicy.Text.Basic

/-!
# Reading UTF-8

The text that a sequence of bytes stands for. Bytes that are no UTF-8 are replaced: every longest
part that begins a character without completing it, and every byte that begins none, becomes U+FFFD.
-/

namespace RoutingPolicy

namespace Text

/-- The ranges in which the bytes after a leading byte have to lie; none if the byte begins no
character. -/
def continuations? (lead : UInt8) : Option (List (UInt8 × UInt8)) :=
  let any : UInt8 × UInt8 := (0x80, 0xBF)
  if lead < 0x80 then some []
  else if 0xC2 ≤ lead ∧ lead ≤ 0xDF then some [any]
  else if lead = 0xE0 then some [(0xA0, 0xBF), any]
  else if lead = 0xED then some [(0x80, 0x9F), any]
  else if 0xE1 ≤ lead ∧ lead ≤ 0xEF then some [any, any]
  else if lead = 0xF0 then some [(0x90, 0xBF), any, any]
  else if 0xF1 ≤ lead ∧ lead ≤ 0xF3 then some [any, any, any]
  else if lead = 0xF4 then some [(0x80, 0x8F), any, any]
  else none

/-- The bits of a leading byte that belong to its character. -/
def leadBits (lead : UInt8) : Nat :=
  if lead < 0x80 then lead.toNat
  else if lead < 0xE0 then lead.toNat % 0x20
  else if lead < 0xF0 then lead.toNat % 0x10
  else lead.toNat % 0x08

/-- Takes as many bytes as lie in the given ranges, and adds their bits to a code. There is no
character if not all ranges are met. -/
def continued (code : Nat) : List (UInt8 × UInt8) → List UInt8 → Option Char × List UInt8
  | [], bytes => (some (Char.ofNat code), bytes)
  | (first, last) :: ranges, byte :: bytes =>
    if first ≤ byte ∧ byte ≤ last then
      continued (code * 0x40 + byte.toNat % 0x40) ranges bytes
    else (none, byte :: bytes)
  | _ :: _, [] => (none, [])

theorem length_continued (code : Nat) (ranges : List (UInt8 × UInt8)) (bytes : List UInt8) :
    (continued code ranges bytes).2.length ≤ bytes.length := by
  fun_induction continued code ranges bytes with
  | case1 => simp
  | case2 _ _ _ _ _ _ _ ih => simp only [List.length_cons]; omega
  | case3 => simp
  | case4 => simp

def ofUtf8 : List UInt8 → Text
  | [] => []
  | lead :: bytes =>
    match continuations? lead with
    | none => Char.ofNat 0xFFFD :: ofUtf8 bytes
    | some ranges =>
      let result := continued (leadBits lead) ranges bytes
      result.1.getD (Char.ofNat 0xFFFD) :: ofUtf8 result.2
termination_by bytes => bytes.length
decreasing_by
  · simp
  · have := length_continued (leadBits lead) ranges bytes
    simp only [List.length_cons]
    omega

end Text

end RoutingPolicy
