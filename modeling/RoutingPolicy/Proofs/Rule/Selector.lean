import RoutingPolicy.Proofs.Rule.Division
import RoutingPolicy.Proofs.Rule.Nesting

/-!
# Selector, filter clause and factor

The part of a rule that counts is divided at a filter keyword, and the selector in front of it at its
lead. Both divisions are told as relations between a text and its parts, in which no position occurs,
and the functions that cut at positions are shown to return what the relations allow.
-/

namespace RoutingPolicy

open Text

namespace Decomposition

/-! ### Selector and filter clause -/

/-- The part that counts is divided at the first `ACCEPT`, or without one at the first `ANNOUNCE`, or
without this at the first `NETWORKS`. Without any of them all of it is the selector. -/
inductive Divides (part : Text) (isDefault : Bool) : Text → Option Text → Prop
  | filter {missing : List Keyword} {keyword : Keyword} {before word after : Text}
      (hpreferred : missing ++ [keyword] <+: [.accept, .announce, .networks])
      (hmissing : ∀ other ∈ missing, containsKeyword part other = false)
      (hcut : CutAtFirst keyword part before word after) :
      Divides part isDefault before (some (clause keyword (trim after)))
  | missing (hmissing : ∀ keyword ∈ [.accept, .announce, .networks],
      containsKeyword part keyword = false) :
      Divides part isDefault part (if isDefault then some anyFilter else none)

theorem splitFilter_of_divides {part selector : Text} {isDefault : Bool} {filterClause : Option Text}
    (hdivides : Divides part isDefault selector filterClause) :
    splitFilter part isDefault = (selector, filterClause) := by
  have hnone : ∀ keyword, containsKeyword part keyword = false →
      (Token.first? keyword (tokenize part)).map (keyword, ·) = none := by
    intro keyword hkeyword
    rw [Token.first?_eq_none hkeyword, Option.map_none]
  cases hdivides with
  | @filter missing keyword _ word after hpreferred hmissing hcut =>
    obtain ⟨later, hlater⟩ := hpreferred
    have htoken : filterToken? (tokenize part) = some (keyword, ⟨word, byteSize selector⟩) := by
      rw [filterToken?, List.findSome?_eq_some_iff]
      refine ⟨missing, keyword, later, ?_, ?_, fun other hother => hnone other (hmissing other hother)⟩
      · rw [filterKeywords, ← hlater, List.append_assoc, List.singleton_append]
      · rw [hcut.first?_eq, Option.map_some]
    rw [splitFilter, htoken]
    simp only [hcut.eq_append, takeBytes_cut, dropBytes_cut]
  | missing hmissing =>
    have htoken : filterToken? (tokenize part) = none :=
      List.findSome?_eq_none_iff.2 fun keyword hkeyword => hnone keyword (hmissing keyword hkeyword)
    rw [splitFilter, htoken]

theorem exists_divides (part : Text) (isDefault : Bool) :
    ∃ selector filterClause, Divides part isDefault selector filterClause := by
  by_cases hsome : ∃ keyword ∈ [.accept, .announce, .networks], containsKeyword part keyword = true
  · obtain ⟨keyword, hfound⟩ := Option.isSome_iff_exists.1 (List.find?_isSome.2 hsome)
    obtain ⟨hkeyword, missing, later, hlist, hmissing⟩ := List.find?_eq_some_iff_append.1 hfound
    obtain ⟨before, word, after, hcut⟩ := exists_cutAtFirst hkeyword
    have hpreferred : missing ++ [keyword] <+: [.accept, .announce, .networks] :=
      ⟨later, by rw [hlist, List.append_assoc, List.singleton_append]⟩
    exact ⟨_, _, .filter hpreferred (fun other hother => by simpa using hmissing other hother) hcut⟩
  · exact ⟨_, _, .missing fun keyword hkeyword =>
      Bool.of_not_eq_true fun hcontains => hsome ⟨keyword, hkeyword, hcontains⟩⟩

/-! ### The factor -/

/-- A selector leads to its peer with its last `FROM` or, without any, with its last `TO`. -/
inductive Leads (selector : Text) : Text → Prop
  | fromPeer {before word after : Text} (hcut : CutAtLast .fromPeer selector before word after) :
      Leads selector (clause .fromPeer (trim after))
  | toPeer {before word after : Text} (hfrom : containsKeyword selector .fromPeer = false)
      (hcut : CutAtLast .toPeer selector before word after) :
      Leads selector (clause .toPeer (trim after))

theorem factor?_eq (selector : Text) :
    factor? selector = ((Token.last? .fromPeer (tokenize selector)).map fun token =>
        clause .fromPeer (trim (dropBytes token.stop selector))).or
      ((Token.last? .toPeer (tokenize selector)).map fun token =>
        clause .toPeer (trim (dropBytes token.stop selector))) := by
  rw [factor?, List.findSome?_cons]
  cases Token.last? .fromPeer (tokenize selector) with
  | some token => rfl
  | none =>
    rw [List.findSome?_cons]
    cases Token.last? .toPeer (tokenize selector) <;> rfl

theorem factor?_of_leads {selector factor : Text} (hleads : Leads selector factor) :
    factor? selector = some factor := by
  have hlast {keyword : Keyword} {before word after : Text}
      (hcut : CutAtLast keyword selector before word after) :
      (Token.last? keyword (tokenize selector)).map
          (fun token => clause keyword (trim (dropBytes token.stop selector))) =
        some (clause keyword (trim after)) := by
    rw [hcut.last?_eq, Option.map_some, hcut.eq_append, dropBytes_cut]
  rw [factor?_eq]
  cases hleads with
  | fromPeer hcut => rw [hlast hcut, Option.some_or]
  | toPeer hfrom hcut => rw [Token.last?_eq_none hfrom, Option.map_none, Option.none_or, hlast hcut]

theorem factor?_of_not_contains {selector : Text} (hfrom : containsKeyword selector .fromPeer = false)
    (hto : containsKeyword selector .toPeer = false) : factor? selector = none := by
  rw [factor?_eq, Token.last?_eq_none hfrom, Token.last?_eq_none hto]
  rfl

theorem exists_leads {selector : Text} (hlead : containsKeyword selector .fromPeer = true ∨
    containsKeyword selector .toPeer = true) : ∃ factor, Leads selector factor := by
  cases hfrom : containsKeyword selector .fromPeer with
  | true =>
    obtain ⟨before, word, after, hcut⟩ := exists_cutAtLast hfrom
    exact ⟨_, .fromPeer hcut⟩
  | false =>
    rw [hfrom] at hlead
    obtain ⟨before, word, after, hcut⟩ := exists_cutAtLast (hlead.resolve_left Bool.false_ne_true)
    exact ⟨_, .toPeer hfrom hcut⟩

/-- The peer of a factor is named behind every `FROM` of the selector, or behind every `TO` of a
selector without `FROM`. -/
theorem Leads.exists_tail {selector factor : Text} (hleads : Leads selector factor) :
    ∃ tail, if containsKeyword selector .fromPeer then
        factor = clause .fromPeer tail ∧ containsKeyword tail .fromPeer = false
      else factor = clause .toPeer tail ∧ containsKeyword tail .fromPeer = false ∧
        containsKeyword tail .toPeer = false := by
  cases hleads with
  | @fromPeer before word after hcut =>
    refine ⟨trim after, ?_⟩
    rw [if_pos hcut.containsKeyword_eq_true, containsKeyword_trim]
    exact ⟨rfl, hcut.after_eq_false⟩
  | @toPeer before word after hfrom hcut =>
    refine ⟨trim after, ?_⟩
    rw [hfrom, if_neg Bool.false_ne_true, containsKeyword_trim, containsKeyword_trim]
    exact ⟨rfl, hcut.containsKeyword_after hfrom, hcut.after_eq_false⟩

end Decomposition

end RoutingPolicy
