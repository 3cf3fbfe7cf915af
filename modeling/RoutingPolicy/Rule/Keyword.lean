import RoutingPolicy.Text.Basic

/-!
# Keywords of policy rules

The words that structure a routing policy rule. They are recognised in any letter case, and only
as whole words.
-/

namespace RoutingPolicy

/-- A word with a meaning of its own in a policy rule. -/
inductive Keyword where
  | fromPeer
  | toPeer
  | accept
  | announce
  | networks
  | action
  | atRouter
  | afi
  | refine
  | except
deriving DecidableEq

namespace Keyword

def all : List Keyword :=
  [fromPeer, toPeer, accept, announce, networks, action, atRouter, afi, refine, except]

def name : Keyword → Text
  | fromPeer => "FROM".toList
  | toPeer => "TO".toList
  | accept => "ACCEPT".toList
  | announce => "ANNOUNCE".toList
  | networks => "NETWORKS".toList
  | action => "ACTION".toList
  | atRouter => "AT".toList
  | afi => "AFI".toList
  | refine => "REFINE".toList
  | except => "EXCEPT".toList

def ofWord? (word : Text) : Option Keyword :=
  all.find? fun keyword => Text.sameLetters keyword.name word

theorem mem_all (keyword : Keyword) : keyword ∈ all := by
  cases keyword <;> decide

/-- No two keywords have the same spelling up to letter case. -/
theorem eq_of_sameLetters_name {a b : Keyword} (h : Text.sameLetters a.name b.name = true) :
    a = b := by
  revert h
  cases a <;> cases b <;> decide

/-- A word spells a keyword exactly when it is the keyword's name in some letter case. -/
theorem ofWord?_eq_some_iff {word : Text} {keyword : Keyword} :
    ofWord? word = some keyword ↔ Text.sameLetters keyword.name word = true := by
  constructor
  · intro h
    exact List.find?_some (p := fun k : Keyword => Text.sameLetters k.name word) h
  · intro h
    cases hf : ofWord? word with
    | none =>
      have := List.find?_eq_none.1 hf keyword (mem_all keyword)
      exact absurd h this
    | some other =>
      have hother : Text.sameLetters other.name word = true :=
        List.find?_some (p := fun k : Keyword => Text.sameLetters k.name word) hf
      simp only [Text.sameLetters, beq_iff_eq] at h hother
      have hname : Text.sameLetters other.name keyword.name = true := by
        simp [Text.sameLetters, h, hother]
      rw [eq_of_sameLetters_name hname]

end Keyword

end RoutingPolicy
