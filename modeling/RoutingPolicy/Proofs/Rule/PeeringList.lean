import RoutingPolicy.Proofs.Rule.Assignment
import RoutingPolicy.Proofs.Rule.Decomposition
import RoutingPolicy.Proofs.Rule.Factor
import RoutingPolicy.Proofs.Rule.Routers
import RoutingPolicy.Rule.Parsed

/-!
# Rules with several peerings

A rule may name several peers before its filter, each with its own routers and its own action. The
readers disagree about which of them counts: the subject is that of the last peering, the routers
are those of the first, and the action clause begins in the first peering and goes on to the filter.
-/

namespace RoutingPolicy

open Text

/-- A peer with the routers of the session and an action for it. -/
structure WrittenPeering where
  subject : Text
  remoteRouter : Ipv4
  localRouter : Ipv4
  assignment : Assignment
  plainWord_subject : PlainWord subject

namespace WrittenPeering

variable (peering : WrittenPeering)

/-- The router addresses, seen from this system. -/
def addresses : AddressPair := ⟨.v4 peering.localRouter, .v4 peering.remoteRouter⟩

/-- The parts between subject and assignment. -/
def routerParts : List Text :=
  [peering.addresses.remoteRouter.toText, Keyword.atRouter.name,
    peering.addresses.localRouter.toText, Keyword.action.name]

/-- The parts behind the subject. -/
def tailParts : List Text := peering.routerParts ++ [peering.assignment.toText ++ [';']]

def parts : List Text := Keyword.fromPeer.name :: peering.subject :: peering.tailParts

/-- The peering as one text, without the semicolon behind its assignment. -/
def statement : Text :=
  spaced (Keyword.fromPeer.name :: peering.subject ::
    (peering.routerParts ++ [peering.assignment.toText]))

theorem uses_tailParts : Uses [.atRouter, .action] peering.tailParts := by
  have hrouters : Uses [.atRouter, .action] peering.routerParts :=
    Uses.cons (Address.plainWord_toText _).uses (Uses.cons (uses_name (by decide))
      (Uses.cons (Address.plainWord_toText _).uses (uses_name (by decide))))
  exact Uses.append hrouters peering.assignment.plainWord_toText.uses.statement

theorem uses_peeringParts : Uses [.atRouter, .action] (peering.subject :: peering.tailParts) :=
  Uses.cons peering.plainWord_subject.uses peering.uses_tailParts

theorem uses_parts : Uses [.fromPeer, .atRouter, .action] peering.parts :=
  Uses.cons (uses_name (by decide)) (peering.uses_peeringParts.mono (by decide))

theorem spaced_parts : spaced peering.parts = peering.statement ++ [';'] := by
  rw [parts, tailParts, statement, ← List.cons_append, ← List.cons_append,
    spaced_append_singleton, ← List.cons_append, ← List.cons_append, spaced_append_singleton,
    List.append_assoc]

theorem semicolon_not_mem_statement : ';' ∉ peering.statement := by
  have hword : ∀ word, IsWord word → ';' ∉ word := fun word hword => hword.not_mem (by decide)
  have haddress : ∀ address : Address, ';' ∉ address.toText := fun address =>
    hword _ address.plainWord_toText.isWord
  have hname : ∀ keyword : Keyword, ';' ∉ keyword.name := fun keyword =>
    hword _ (isWord_name keyword)
  have hparts : ∀ part ∈ Keyword.fromPeer.name :: peering.subject ::
      (peering.routerParts ++ [peering.assignment.toText]), ';' ∉ part := by
    simp only [routerParts, List.cons_append, List.nil_append, List.forall_mem_cons]
    exact ⟨hname _, hword _ peering.plainWord_subject.isWord, haddress _, hname _, haddress _,
      hname _, hword _ peering.assignment.isWord_toText, by simp⟩
  exact not_mem_intercalate (by decide) hparts

theorem equals_mem_statement : '=' ∈ peering.statement := by
  rw [statement, ← List.cons_append, ← List.cons_append, spaced_append_singleton]
  exact List.mem_append_right _ peering.assignment.equals_mem_toText

end WrittenPeering

/-- An import rule with peerings, at least one, and a filter. -/
structure PeeringList where
  first : WrittenPeering
  rest : List WrittenPeering
  filter : Text
  plainWord_filter : PlainWord filter

namespace PeeringList

variable (list : PeeringList)

def bodyParts : List Text :=
  (list.first :: list.rest).flatMap WrittenPeering.parts ++ Keyword.accept.name :: [list.filter]

def toText : Text := spaced list.bodyParts

def last : WrittenPeering := (list.first :: list.rest).getLast (List.cons_ne_nil _ _)

theorem uses_flatMap (peerings : List WrittenPeering) :
    Uses [.fromPeer, .atRouter, .action] (peerings.flatMap WrittenPeering.parts) :=
  Uses.flatMap fun peering _ => peering.uses_parts

theorem uses_bodyParts : Uses [.fromPeer, .atRouter, .action, .accept] list.bodyParts :=
  Uses.append ((uses_flatMap _).mono (by decide))
    (Uses.cons (uses_name (by decide)) list.plainWord_filter.uses)

theorem bodyParts_eq_last : ∃ init : List WrittenPeering, list.bodyParts =
    init.flatMap WrittenPeering.parts ++ Keyword.fromPeer.name ::
      ((list.last.subject :: list.last.tailParts) ++ Keyword.accept.name :: [list.filter]) := by
  have hsplit := List.dropLast_append_getLast (List.cons_ne_nil list.first list.rest)
  refine ⟨(list.first :: list.rest).dropLast, ?_⟩
  rw [bodyParts, ← hsplit, List.flatMap_append]
  simp [WrittenPeering.parts, last]

/-! ### Subject and filter -/

theorem expression?_toText :
    Decomposition.expression? (trim list.toText) = some list.toText := by
  have huses := list.uses_bodyParts
  have hgroup : Decomposition.isGrouped (tokenize list.toText) = false := by
    rw [toText, bodyParts, List.flatMap_cons, WrittenPeering.parts, List.cons_append,
      List.cons_append, tokenize_spaced_cons (.inl (isWord_name _))]
    simp [Decomposition.isGrouped, Token.kind]
  have htrim : trim list.toText = list.toText := trim_spaced huses.solid
  rw [htrim]
  refine Decomposition.expression?_ungrouped hgroup
    (containsKeyword_spaced (huses.without _ (by decide)))
    (containsKeyword_spaced (huses.without _ (by decide))) ?_
  rw [toText, huses.count_spaced (.inl rfl), huses.count_spaced (.inr rfl)]

theorem decompose_toText (isDefault : Bool) : decompose list.toText isDefault =
    .ok ⟨spaced (Keyword.fromPeer.name :: list.last.subject :: list.last.tailParts),
      some (spaced [Keyword.accept.name, list.filter])⟩ := by
  obtain ⟨init, hbody⟩ := list.bodyParts_eq_last
  have hexpression := list.expression?_toText
  have hlast := list.last.uses_peeringParts
  have hfilter := list.plainWord_filter
  nth_rewrite 2 [toText] at hexpression
  rw [hbody] at hexpression
  refine decompose_of_expression _ _ _ isDefault hexpression (.inl rfl) (by decide) ?_ ?_ ?_ ?_
  · intro keyword hkeyword
    refine (Uses.append (uses_flatMap init) (hlast.mono (by decide))).without keyword ?_
    revert keyword
    decide
  · exact fun keyword _ _ => hfilter.without keyword
  · exact hlast.without _ (by decide)
  · exact List.forall_mem_append.2 ⟨hlast.solid, List.forall_mem_singleton.2 hfilter.solid⟩

theorem read_toText (requested : IpVersions) :
    ParsedRule.read list.toText ((Context.importing false).requesting requested) =
      .ok ⟨.ipv4Unicast, .incoming, false, list.last.subject, list.filter⟩ := by
  have hlast := list.last.uses_peeringParts
  have hfilter := list.plainWord_filter
  have hsemicolon : list.filter.getLast? ≠ some ';' := fun heq =>
    hfilter.isWord.not_mem (by decide) (List.mem_of_getLast? heq)
  have hjoined := Factor.joined_spaced .accept (List.forall_mem_cons.2
    ⟨solid_name .fromPeer, hlast.solid⟩) (List.cons_ne_nil _ _) hfilter.solid hsemicolon
  have hfactor := Factor.read_of_joined (by decide : Factor.Form.importing ∈ Factor.forms) hjoined
    list.last.plainWord_subject list.last.uses_tailParts.solid
    (List.forall_mem_singleton.2 hfilter.solid) (List.cons_ne_nil _ _)
    (hfilter.without _) fun heq => absurd (congrArg Factor.Form.boundary heq) (by decide)
  have hfamily : ParsedRule.splitFamily list.toText
      ((Context.importing false).requesting requested) = (.ipv4Unicast, list.toText) := rfl
  rw [spaced_singleton] at hfactor
  simp only [ParsedRule.read, hfamily, decompose_toText, Option.getD_some, hfactor]
  rfl

/-! ### Router addresses and actions -/

theorem addresses_toText :
    AddressPair.ofRule? list.toText false = some list.first.addresses := by
  have hfront : Uses [.fromPeer] [Keyword.fromPeer.name, list.first.subject] :=
    Uses.cons (uses_name (by decide)) list.first.plainWord_subject.uses
  exact AddressPair.ofRule?_spaced rfl rfl (hfront.without _ (by decide))
    (hfront.without _ (by decide)) (.inl rfl)

/-- The peerings behind the first one are parts of the clause as a whole. -/
theorem toText_eq : list.toText =
    spaced ([Keyword.fromPeer.name, list.first.subject, list.first.addresses.remoteRouter.toText,
      Keyword.atRouter.name, list.first.addresses.localRouter.toText] ++ Keyword.action.name ::
        ((list.first.assignment.toText :: list.rest.map WrittenPeering.statement).map
          (· ++ [';']) ++ Keyword.accept.name :: [list.filter])) := by
  have hne : ∀ peering : WrittenPeering, peering.parts ≠ [] := fun _ => List.cons_ne_nil _ _
  have hrest : leading (list.rest.flatMap WrittenPeering.parts) =
      leading ((list.rest.map WrittenPeering.statement).map (· ++ [';'])) := by
    rw [leading_flatMap_eq list.rest hne, List.map_map]
    exact congrArg leading (List.map_congr_left fun peering _ => peering.spaced_parts)
  rw [toText, bodyParts, spaced_append_cons, List.flatMap_cons, leading_append, hrest,
    ← leading_append, ← spaced_append_cons]
  simp [WrittenPeering.parts, WrittenPeering.tailParts, WrittenPeering.routerParts]

theorem actions_toText : ActionList.ofRule? list.toText .incoming .accept =
    some ⟨.incoming, list.first.assignment.action 0 ::
      Action.ofStatements 1 (list.rest.map WrittenPeering.statement)⟩ := by
  have hfront : Uses [.fromPeer, .atRouter] [Keyword.fromPeer.name, list.first.subject,
      list.first.addresses.remoteRouter.toText, Keyword.atRouter.name,
      list.first.addresses.localRouter.toText] :=
    Uses.cons (uses_name (by decide)) (Uses.cons list.first.plainWord_subject.uses
      (Uses.cons (Address.plainWord_toText _).uses (Uses.cons (uses_name (by decide))
        (Address.plainWord_toText _).uses)))
  have hstatements : ∀ text ∈ list.first.assignment.toText ::
      list.rest.map WrittenPeering.statement, ';' ∉ text := by
    refine List.forall_mem_cons.2 ⟨list.first.assignment.isWord_toText.not_mem (by decide), ?_⟩
    rw [List.forall_mem_map]
    exact fun peering _ => peering.semicolon_not_mem_statement
  rw [toText_eq, ActionList.ofRule?_spaced .incoming hstatements (hfront.without _ (by decide))
    (list.plainWord_filter.without _),
    Action.ofStatements, Assignment.ofStatement?_toText]
  rfl

end PeeringList

end RoutingPolicy
