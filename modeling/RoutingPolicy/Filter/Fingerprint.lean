import Std.Data.ExtTreeMap
import RoutingPolicy.Filter.Digest
import RoutingPolicy.Text.Numeral

/-!
# Fingerprints of filters

A filter is referred to by the digest of its text, written as sixteen hexadecimal digits. Reading a
fingerprint allows one plus sign, digits of either case and any number of leading zeros; the first
character that does not fit decides the error.
-/

namespace RoutingPolicy

/-- The digest of a filter text. -/
structure Fingerprint where
  value : UInt64
deriving DecidableEq

namespace Fingerprint

def ofText (text : Text) : Fingerprint := ⟨Digest.ofBytes (Text.utf8 text)⟩

def toText (fingerprint : Fingerprint) : Text := Text.hexPadded 16 fingerprint.value.toNat

instance : Ord Fingerprint := ⟨compareOn value⟩

instance : Std.TransOrd Fingerprint := inferInstanceAs (Std.TransCmp (compareOn value))

instance : Std.LawfulEqOrd Fingerprint where
  eq_of_compare {x y} h := by
    have h' : x.value = y.value := Std.LawfulEqOrd.eq_of_compare (α := UInt64) h
    cases x
    cases y
    simp_all

/-- A cause for which a text is no fingerprint. -/
inductive ReadError where
  | empty
  | invalidDigit
  | overflow
deriving DecidableEq

def ReadError.message : ReadError → Text
  | empty => "cannot parse integer from empty string".toList
  | invalidDigit => "invalid digit found in string".toList
  | overflow => "number too large to fit in target type".toList

/-- Appends digits to a number, from the left, and stops at the first one that does not fit. -/
def readDigits (number : Nat) : Text → Except ReadError Nat
  | [] => .ok number
  | c :: text =>
    match Text.hexValue? c with
    | none => .error .invalidDigit
    | some digit =>
      if number * 16 + digit < 2 ^ 64 then readDigits (number * 16 + digit) text
      else .error .overflow

def read (text : Text) : Except ReadError Fingerprint :=
  match text with
  | [] => .error .empty
  | ['+'] => .error .invalidDigit
  | '+' :: digits => (readDigits 0 digits).map fun n => ⟨UInt64.ofNat n⟩
  | digits => (readDigits 0 digits).map fun n => ⟨UInt64.ofNat n⟩

end Fingerprint

/-- A filter in use: its fingerprint, and whether it came from a multiprotocol rule. -/
structure FilterRef where
  fingerprint : Fingerprint
  multiprotocol : Bool
deriving DecidableEq

namespace FilterRef

/-- References are ordered by fingerprint, plain ones before multiprotocol ones. -/
def cmp : FilterRef → FilterRef → Ordering :=
  compareLex (compareOn fingerprint) (compareOn multiprotocol)

instance : Ord FilterRef := ⟨cmp⟩

instance : Std.TransOrd FilterRef :=
  inferInstanceAs (Std.TransCmp (compareLex (compareOn fingerprint) (compareOn multiprotocol)))

instance : Std.LawfulEqOrd FilterRef where
  eq_of_compare {x y} h := by
    have h' : compare x.fingerprint y.fingerprint = .eq ∧
        compare x.multiprotocol y.multiprotocol = .eq := Ordering.then_eq_eq.1 h
    cases x
    cases y
    simp_all

end FilterRef

end RoutingPolicy
