import RoutingPolicy.Proofs.Rule.PeeringList
import RoutingPolicy.Proofs.Session.Run
import RoutingPolicy.Proofs.Session.Single

/-!
# Analysing rules with several peerings

What a session records for a rule with several peerings is put together from different ones of them.
Only a rule with a single peering is recorded as it is meant.
-/

namespace RoutingPolicy

namespace PeeringList

variable (list : PeeringList)

/-- What the rule adds to the peering model: the subject of its last peering and the routers of its
first, whose assignment is followed by one action for each further peering as a whole. -/
def contribution : Contribution where
  subject := list.last.subject
  filter := if list.filter = anyFilter then none else some list.filter
  multiprotocol := false
  point :=
    ⟨false, some list.first.addresses, some ⟨.incoming, list.first.assignment.action 0 ::
      Action.ofStatements 1 (list.rest.map WrittenPeering.statement)⟩, none⟩

theorem ofRule_toText (requested : IpVersions) :
    Contribution.ofRule list.toText ((Context.importing false).requesting requested)
      ⟨list.last.subject, list.filter⟩ = list.contribution := by
  have hdirection : ((Context.importing false).requesting requested).direction = .incoming := rfl
  have hmultiprotocol : ((Context.importing false).requesting requested).multiprotocol = false :=
    rfl
  have hboundary : ((Context.importing false).requesting requested).actionBoundary = .accept := rfl
  rw [Contribution.ofRule, contribution, hdirection, hmultiprotocol, hboundary, addresses_toText,
    actions_toText, Factor.isAny]
  simp only [beq_iff_eq]
  rfl

end PeeringList

namespace Session

/-- The session holds one peer with one point, and these are as one peering says. -/
def RecordsPeering (session : Session) (peering : WrittenPeering) : Prop :=
  ∃ contribution actions, session.Records contribution ∧
    contribution.subject = peering.subject ∧
    contribution.point.addresses = some peering.addresses ∧
    contribution.point.importActions = some actions ∧
    actions.actions.map (fun action => (action.name, action.operator, action.value)) =
      [(peering.assignment.name, peering.assignment.operator, peering.assignment.value)]

theorem analyse_peeringList_eq (list : PeeringList) (ipv6 : Bool) (session : Session) :
    session.analyse list.toText ((Context.importing false).requesting ⟨true, ipv6⟩) =
      (.ok (.accepted list.last.subject), session.add list.contribution) := by
  have hfamily : AddressFamily.acceptedBy .ipv4Unicast
      ((Context.importing false).requesting ⟨true, ipv6⟩).requested = true := by
    cases ipv6 <;> decide
  rw [session.analyse_of_read (list.read_toText ⟨true, ipv6⟩), if_pos hfamily]
  simp only [list.ofRule_toText]

/-- A rule of several peerings always gives more than one action. -/
theorem recordsPeering_iff (list : PeeringList) {session : Session}
    (hsession : session.Records list.contribution) :
    (∃ peering ∈ list.first :: list.rest, session.RecordsPeering peering) ↔ list.rest = [] := by
  have hlength : (Action.ofStatements 1 (list.rest.map WrittenPeering.statement)).length =
      list.rest.length := by
    have hequals : ∀ text ∈ list.rest.map WrittenPeering.statement, '=' ∈ text := by
      rw [List.forall_mem_map]
      exact fun peering _ => peering.equals_mem_statement
    rw [ActionList.length_ofStatements 1 hequals, List.length_map]
  constructor
  · rintro ⟨peering, -, contribution, actions, hrecords, -, -, hactions, hmap⟩
    have hpoint := (hrecords.unique hsession).2
    rw [hpoint] at hactions
    have hcount := congrArg List.length hmap
    rw [← Option.some.inj hactions, List.length_map, List.length_cons, hlength,
      List.length_singleton] at hcount
    exact List.length_eq_zero_iff.1 (by omega)
  · intro hrest
    refine ⟨list.first, List.mem_cons_self, list.contribution, _, hsession, ?_, rfl, rfl, ?_⟩
    · simp [PeeringList.contribution, PeeringList.last, hrest]
    · rw [hrest]
      rfl

/-- A rule with peerings is accepted, and a new session holds the subject of its last peering with
the routers of its first and with actions from the first on. It holds one of the peerings only if
the rule has just one. -/
theorem analyse_peeringList (list : PeeringList) (ipv6 : Bool) (autnum : Text) (config : Config) :
    let result := (new autnum config).analyse list.toText
      ((Context.importing false).requesting ⟨true, ipv6⟩)
    result.1 = .ok (.accepted list.last.subject) ∧ result.2.Records list.contribution ∧
      ((∃ peering ∈ list.first :: list.rest, result.2.RecordsPeering peering) ↔
        list.rest = []) := by
  intro result
  have hrecords := records_add autnum config list.contribution
  have hresult : result =
      (.ok (.accepted list.last.subject), (new autnum config).add list.contribution) :=
    analyse_peeringList_eq list ipv6 _
  rw [hresult]
  exact ⟨rfl, hrecords, recordsPeering_iff list hrecords⟩

/-- The assignment `pref=1`. -/
def preference : Assignment where
  name := "pref".toList
  operator := .assign
  value := "1".toList
  name_plain _ hc :=
    ⟨List.all_eq_true.1 (by decide) _ hc, ne_of_mem_of_not_mem hc (by decide)⟩
  name_last := by decide
  value_plain := List.all_eq_true.1 (by decide)
  value_unmarked := by decide

/-- Two peers, each with its own routers and its own preference. -/
def twoPeerings : PeeringList where
  first :=
    { subject := "AS1".toList
      remoteRouter := ⟨192, 0, 2, 2⟩
      localRouter := ⟨192, 0, 2, 1⟩
      assignment := preference
      plainWord_subject := by decide }
  rest :=
    [{ subject := "AS2".toList
       remoteRouter := ⟨198, 51, 100, 2⟩
       localRouter := ⟨198, 51, 100, 1⟩
       assignment := { preference with
         value := "2".toList
         value_plain := List.all_eq_true.1 (by decide)
         value_unmarked := by decide }
       plainWord_subject := by decide }]
  filter := "AS-X".toList
  plainWord_filter := by decide

theorem analyse_two_peerings :
    let session := ((new "AS64500".toList .standard).analyse
      ("FROM AS1 192.0.2.2 AT 192.0.2.1 ACTION pref=1; " ++
        "FROM AS2 198.51.100.2 AT 198.51.100.1 ACTION pref=2; ACCEPT AS-X").toList
      (.importing false)).2
    ¬∃ peering ∈ twoPeerings.first :: twoPeerings.rest, session.RecordsPeering peering := by
  have htext : ("FROM AS1 192.0.2.2 AT 192.0.2.1 ACTION pref=1; " ++
      "FROM AS2 198.51.100.2 AT 198.51.100.1 ACTION pref=2; ACCEPT AS-X").toList =
        twoPeerings.toText := by
    decide
  have hresult := analyse_peeringList_eq twoPeerings false (new "AS64500".toList .standard)
  have hrecords := records_add "AS64500".toList .standard twoPeerings.contribution
  rw [htext]
  intro session
  have hsession : session = (new "AS64500".toList .standard).add twoPeerings.contribution :=
    congrArg Prod.snd hresult
  rw [hsession, recordsPeering_iff twoPeerings hrecords]
  exact List.cons_ne_nil _ _

end Session

end RoutingPolicy
