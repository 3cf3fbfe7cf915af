import RoutingPolicy.Peering.Peer

/-!
# The directory of peers

All peers of one policy, found by their identifiers.
-/

namespace RoutingPolicy

/-- Peers by identifier. -/
structure Directory where
  peers : Std.ExtTreeMap Text Peer

namespace Directory

def empty : Directory := ⟨∅⟩

/-- Inserts a peer, or merges it into the one with the same identifier. -/
def insert (directory : Directory) (peer : Peer) : Directory :=
  let join : Option Peer → Option Peer
    | none => some peer
    | some existing => some (existing.merge peer)
  ⟨directory.peers.alter peer.identifier join⟩

def get? (directory : Directory) (identifier : Text) : Option Peer := directory.peers[identifier]?

def contains (directory : Directory) (identifier : Text) : Bool :=
  directory.peers.contains identifier

def size (directory : Directory) : Nat := directory.peers.size

def isEmpty (directory : Directory) : Bool := directory.peers.isEmpty

/-- The identifiers and the peers stored under them, ordered by identifier. -/
def toList (directory : Directory) : List (Text × Peer) := directory.peers.toList

@[ext] theorem ext {a b : Directory} (h : ∀ identifier, a.get? identifier = b.get? identifier) :
    a = b := by
  cases a
  cases b
  exact congrArg _ (Std.ExtTreeMap.ext_getElem? h)

@[simp] theorem get?_empty (identifier : Text) : empty.get? identifier = none := by
  simp [empty, get?]

theorem contains_eq_isSome (directory : Directory) (identifier : Text) :
    directory.contains identifier = (directory.get? identifier).isSome :=
  Std.ExtTreeMap.contains_eq_isSome_getElem?

theorem get?_insert (directory : Directory) (peer : Peer) (identifier : Text) :
    (directory.insert peer).get? identifier =
      if peer.identifier = identifier then
        match directory.get? identifier with
        | none => some peer
        | some existing => some (existing.merge peer)
      else directory.get? identifier := by
  simp only [insert, get?, Std.ExtTreeMap.getElem?_alter, Std.LawfulEqCmp.compare_eq_iff_eq]
  split
  next h => subst h; rfl
  next => rfl

end Directory

end RoutingPolicy
