import Std.Data.ExtTreeMap
import RoutingPolicy.Text.Basic

/-!
# Internet addresses

An address is of one of the two IP versions: four octets, or eight groups of sixteen bits. Addresses
are ordered with the older version first and by their parts after that.
-/

namespace RoutingPolicy

structure Ipv4 where
  a : UInt8
  b : UInt8
  c : UInt8
  d : UInt8
deriving DecidableEq

/-- The four octets in order. -/
def Ipv4.octets (address : Ipv4) : List UInt8 := [address.a, address.b, address.c, address.d]

structure Ipv6 where
  groups : List UInt16
  length_groups : groups.length = 8
deriving DecidableEq

inductive Address where
  | v4 (address : Ipv4)
  | v6 (address : Ipv6)
deriving DecidableEq

namespace Address

def isIpv6 : Address → Bool
  | v4 _ => false
  | v6 _ => true

/-- The version and the parts of an address, by which addresses are ordered. -/
def rank : Address → List Nat
  | v4 address => 4 :: address.octets.map UInt8.toNat
  | v6 address => 6 :: address.groups.map UInt16.toNat

theorem eq_of_rank_eq {x y : Address} (h : x.rank = y.rank) : x = y := by
  cases x with
  | v4 p =>
    cases y with
    | v4 q =>
      simp only [rank, Ipv4.octets, List.map_cons, List.map_nil, List.cons.injEq, true_and,
        and_true, UInt8.toNat_inj] at h
      obtain ⟨ha, hb, hc, hd⟩ := h
      cases p
      cases q
      simp_all
    | v6 q => simp [rank] at h
  | v6 p =>
    cases y with
    | v4 q => simp [rank] at h
    | v6 q =>
      simp only [rank, List.cons.injEq, true_and] at h
      have hgroups := (List.map_inj_right fun _ _ => UInt16.toNat_inj.1).1 h
      cases p
      cases q
      simp_all

instance : Ord Address := ⟨compareOn rank⟩

instance : Std.TransOrd Address := inferInstanceAs (Std.TransCmp (compareOn rank))

instance : Std.LawfulEqOrd Address where
  eq_of_compare h := eq_of_rank_eq (Std.LawfulEqOrd.eq_of_compare (α := List Nat) h)

end Address

/-- The two router addresses of a peering session. -/
structure AddressPair where
  localRouter : Address
  remoteRouter : Address
deriving DecidableEq

namespace AddressPair

/-- Pairs are ordered by their local and then by their remote address. -/
def cmp : AddressPair → AddressPair → Ordering :=
  compareLex (compareOn localRouter) (compareOn remoteRouter)

instance : Ord AddressPair := ⟨cmp⟩

instance : Std.TransOrd AddressPair :=
  inferInstanceAs (Std.TransCmp (compareLex (compareOn localRouter) (compareOn remoteRouter)))

instance : Std.LawfulEqOrd AddressPair where
  eq_of_compare {x y} h := by
    have h' : compare x.localRouter y.localRouter = .eq ∧
        compare x.remoteRouter y.remoteRouter = .eq := Ordering.then_eq_eq.1 h
    cases x
    cases y
    simp_all

end AddressPair

end RoutingPolicy
