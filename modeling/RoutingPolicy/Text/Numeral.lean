import RoutingPolicy.Text.Basic

/-!
# Numbers in text

Natural numbers written with digits of a base up to sixteen, and read back. Reading takes digits of
either case and refuses a text without digits or with anything else in it.
-/

namespace RoutingPolicy

namespace Text

/-- The value of a hexadecimal digit of either case. -/
def hexValue? (c : Char) : Option Nat :=
  if '0' ≤ c ∧ c ≤ '9' then some (c.toNat - '0'.toNat)
  else if 'a' ≤ c ∧ c ≤ 'f' then some (c.toNat - 'a'.toNat + 10)
  else if 'A' ≤ c ∧ c ≤ 'F' then some (c.toNat - 'A'.toNat + 10)
  else none

def digitValue? (base : Nat) (c : Char) : Option Nat := (hexValue? c).filter (· < base)

/-- The number that the digits of a text make. -/
def number? (base : Nat) (text : Text) : Option Nat :=
  if text = [] then none
  else (text.mapM (digitValue? base)).map (·.foldl (fun n d => base * n + d) 0)

def decimal (n : Nat) : Text := Nat.toDigits 10 n

/-- A number in lower-case hexadecimal digits, filled up with zeros to a width. -/
def hexPadded (width n : Nat) : Text :=
  List.replicate (width - (Nat.toDigits 16 n).length) '0' ++ Nat.toDigits 16 n

end Text

end RoutingPolicy
