import RoutingPolicy.Proofs.Peering.Merge
import RoutingPolicy.Proofs.Rule.Action
import RoutingPolicy.Proofs.Session.Run

/-!
# A session groups the rules it accepts

The model that a session has built up rule by rule is the one that the accepted rules give when they
are taken together: grouped by subject into peers, by router addresses into points and by direction
into lists of actions. The grouping is defined here from the rules alone, without any merging.
-/

namespace RoutingPolicy

namespace Request

/-- Where the rule's point is stored: under its router addresses, if it has an `AT` and a pair of
addresses around it. -/
def key (request : Request) : Option AddressPair :=
  if containsKeyword request.text .atRouter then
    AddressPair.ofRule? request.text request.context.multiprotocol
  else none

/-- The filter of the rule, if it can be read and does not let every route pass. -/
def properFilter? (request : Request) : Option Text :=
  match ParsedRule.read request.text request.context with
  | .ok rule => if rule.factor.filter = anyFilter then none else some rule.factor.filter
  | .error _ => none

def actions (request : Request) : List Action :=
  match ActionList.ofRule? request.text request.context.direction
      request.context.actionBoundary with
  | some list => list.actions
  | none => []

/-- Whether the rule has an action clause for a direction. -/
def acts (direction : Direction) (request : Request) : Bool :=
  request.context.direction == direction && containsKeyword request.text .action

/-- The actions of many rules in one direction: each of them where it first occurs. There is no list
if no rule has an action clause for the direction. -/
def groupedActions (direction : Direction) (requests : List Request) : Option ActionList :=
  match requests.filter (acts direction) with
  | [] => none
  | acting => some ⟨direction, (acting.flatMap actions).eraseDups⟩

/-- The point that the rules with one key among many describe together. -/
def groupedPoint (key : Option AddressPair) (requests : List Request) : Option PeeringPoint :=
  match requests.filter (·.key = key) with
  | [] => none
  | there =>
    some ⟨there.any (·.context.multiprotocol), key, groupedActions .incoming there,
      groupedActions .outgoing there⟩

/-- The rules among the accepted ones that name a subject. -/
def naming (subject : Text) (entries : List Accepted) : List Request :=
  (entries.filter (·.subject = subject)).map Accepted.request

end Request

/-- A peer is what some rules say together about one subject. -/
structure Peer.Groups (peer : Peer) (requests : List Request) : Prop where
  mem_filters : ∀ ref, ref ∈ peer.filters ↔
    ∃ request ∈ requests, ∃ filter, request.properFilter? = some filter ∧
      ref = ⟨Fingerprint.ofText filter, request.context.multiprotocol⟩
  point? : ∀ key, peer.point? key = Request.groupedPoint key requests

/-- A directory is what accepted rules say together. -/
structure Directory.Groups (directory : Directory) (entries : List Accepted) : Prop where
  contains_iff : ∀ subject,
    directory.contains subject = true ↔ ∃ entry ∈ entries, entry.subject = subject
  peer : ∀ subject peer, directory.get? subject = some peer →
    peer.identifier = subject ∧ peer.Groups (Request.naming subject entries)

/-- A catalog has the filters of rules, and under each fingerprint the first text that has it. -/
def Catalog.Groups (catalog : Catalog) (requests : List Request) : Prop :=
  ∀ fingerprint, catalog.get? fingerprint =
    (requests.filterMap Request.properFilter?).find? (Fingerprint.ofText · = fingerprint)

namespace Request

/-! ### Groups of the rules of two lists -/

theorem groupedActions_append (direction : Direction) (requests others : List Request) :
    groupedActions direction (requests ++ others) =
      Option.merge ActionList.merge (groupedActions direction requests)
        (groupedActions direction others) := by
  unfold groupedActions
  rw [List.filter_append]
  cases requests.filter (acts direction) with
  | nil => cases others.filter (acts direction) <;> rfl
  | cons first rest =>
    cases others.filter (acts direction) with
    | nil => simp
    | cons other others =>
      simp only [List.cons_append, Option.merge_some_some, Option.some.injEq, ActionList.merge,
        ActionList.mk.injEq, true_and]
      rw [ActionList.foldl_add_eraseDups, eraseDups_append_eraseDups, ← List.flatMap_append,
        List.cons_append]

theorem direction_groupedActions {direction : Direction} {requests : List Request}
    {list : ActionList} (hlist : groupedActions direction requests = some list) :
    list.direction = direction := by
  unfold groupedActions at hlist
  split at hlist
  · simp at hlist
  · rw [← Option.some.inj hlist]

theorem addresses_groupedPoint {key : Option AddressPair} {requests : List Request}
    {point : PeeringPoint} (hpoint : groupedPoint key requests = some point) :
    point.addresses = key := by
  unfold groupedPoint at hpoint
  split at hpoint
  · simp at hpoint
  · rw [← Option.some.inj hpoint]

theorem directed_groupedPoint {key : Option AddressPair} {requests : List Request}
    {point : PeeringPoint} (hpoint : groupedPoint key requests = some point) : point.Directed := by
  unfold groupedPoint at hpoint
  split at hpoint
  · simp at hpoint
  · rw [← Option.some.inj hpoint]
    intro direction list hlist
    cases direction <;> exact direction_groupedActions hlist

theorem groupedPoint_append (key : Option AddressPair) (requests others : List Request) :
    groupedPoint key (requests ++ others) =
      Option.merge PeeringPoint.merge (groupedPoint key requests) (groupedPoint key others) := by
  have hdirected : ∀ point, groupedPoint key others = some point → point.Directed :=
    fun point => directed_groupedPoint
  unfold groupedPoint at hdirected ⊢
  rw [List.filter_append]
  cases requests.filter (·.key = key) with
  | nil => cases others.filter (·.key = key) <;> rfl
  | cons first rest =>
    generalize others.filter (·.key = key) = there at hdirected ⊢
    cases there with
    | nil => simp
    | cons other there =>
      simp only [List.cons_append, Option.merge_some_some, Option.some.injEq]
      rw [← List.cons_append]
      apply PeeringPoint.ext_actions
      · rw [PeeringPoint.multiprotocol_merge, List.any_append]
      · rw [PeeringPoint.addresses_merge]
      · intro direction
        rw [PeeringPoint.actions_merge _ (hdirected _ rfl)]
        cases direction <;> exact groupedActions_append _ _ _

theorem naming_append (subject : Text) (entries others : List Accepted) :
    naming subject (entries ++ others) = naming subject entries ++ naming subject others := by
  simp [naming]

end Request

namespace Peer

theorem Groups.keyed {peer : Peer} {requests : List Request} (hpeer : peer.Groups requests) :
    peer.Keyed := by
  intro key point hpoint
  rw [hpeer.point?] at hpoint
  exact Request.addresses_groupedPoint hpoint

/-- Merging two peers takes the rules behind them together. -/
theorem Groups.merge {peer other : Peer} {requests others : List Request}
    (hpeer : peer.Groups requests) (hother : other.Groups others) :
    (peer.merge other).Groups (requests ++ others) where
  mem_filters ref := by
    rw [mem_filters_merge, hpeer.mem_filters, hother.mem_filters]
    simp only [List.mem_append, or_and_right, exists_or]
  point? key := by
    rw [point?_merge peer hother.keyed, hpeer.point?, hother.point?, Request.groupedPoint_append]

end Peer

namespace Contribution

theorem key_eq (request : Request) :
    request.key = AddressPair.ofRule? request.text request.context.multiprotocol := by
  unfold Request.key AddressPair.ofRule?
  by_cases hat : containsKeyword request.text .atRouter = true
  · rw [if_pos hat]
  · have hnone : (tokenize request.text).any (·.isKeyword .atRouter) = false := by
      simpa [containsKeyword] using hat
    rw [if_neg hat]
    simp [hnone]

theorem groupedActions_singleton (request : Request) (direction : Direction) :
    Request.groupedActions direction [request] =
      (ActionList.ofRule? request.text request.context.direction
        request.context.actionBoundary).filter (·.direction = direction) := by
  have hclause := ActionList.isSome_ofRule? request.text request.context.direction
    request.context.actionBoundary
  unfold Request.groupedActions
  cases hlist : ActionList.ofRule? request.text request.context.direction
      request.context.actionBoundary with
  | none =>
    rw [hlist] at hclause
    simp [Request.acts, ← hclause]
  | some list =>
    have hdirection := ActionList.direction_ofRule? hlist
    have hnodup := eraseDups_of_nodup (ActionList.nodup_ofRule? hlist)
    rw [hlist] at hclause
    by_cases heq : request.context.direction = direction
    · subst heq
      cases list
      simp_all [Request.acts, ← hclause, Request.actions, Option.filter]
    · simp [Request.acts, heq, hdirection, Option.filter]

theorem groupedPoint_singleton (request : Request) (factor : Factor) (key : Option AddressPair) :
    Request.groupedPoint key [request] =
      if request.key = key then
        some (Contribution.ofRule request.text request.context factor).point
      else none := by
  by_cases hkey : request.key = key
  · rw [if_pos hkey, Request.groupedPoint]
    simp only [hkey, decide_true, List.filter_cons_of_pos, List.filter_nil, List.any_cons,
      List.any_nil, Bool.or_false, Option.some.injEq]
    apply PeeringPoint.ext_actions
    · simp [Contribution.ofRule, PeeringPoint.new]
    · simp [Contribution.ofRule, PeeringPoint.new, ← hkey, key_eq]
    · intro direction
      simp only [Contribution.ofRule, PeeringPoint.actions_addActions?, PeeringPoint.actions_new,
        Option.merge_none_left]
      rw [← groupedActions_singleton]
      cases direction <;> rfl
  · simp [Request.groupedPoint, hkey]

theorem properFilter?_eq {request : Request} {rule : ParsedRule}
    (hread : ParsedRule.read request.text request.context = .ok rule) :
    request.properFilter? =
      (Contribution.ofRule request.text request.context rule.factor).filter := by
  simp [Request.properFilter?, hread, Contribution.ofRule, Factor.isAny]

@[simp] theorem identifier_peer (contribution : Contribution) :
    contribution.peer.identifier = contribution.subject := by
  unfold peer
  cases contribution.filter <;> rfl

/-- What one rule contributes is the group of that rule alone. -/
theorem groups_peer {request : Request} {rule : ParsedRule}
    (hread : ParsedRule.read request.text request.context = .ok rule) :
    (Contribution.ofRule request.text request.context rule.factor).peer.Groups [request] where
  mem_filters ref := by
    simp only [List.mem_singleton, exists_eq_left, properFilter?_eq hread]
    cases hcontribution :
        (Contribution.ofRule request.text request.context rule.factor).filter with
    | none => simp [Contribution.peer, hcontribution, Peer.attach, Peer.new]
    | some filter =>
      simp only [Contribution.peer, hcontribution, Peer.attach, Peer.mem_filters_addFilter]
      simp [Peer.new, Contribution.ofRule]
  point? key := by
    have hpoint : (Contribution.ofRule request.text request.context rule.factor).point.addresses =
        request.key := by
      simp [Contribution.ofRule, PeeringPoint.new, key_eq]
    rw [groupedPoint_singleton request rule.factor, Contribution.peer, Peer.point?_attach_eq_merge,
      hpoint]
    cases (Contribution.ofRule request.text request.context rule.factor).filter <;> simp

end Contribution

namespace Directory

theorem Groups.naming_eq_nil {directory : Directory} {entries : List Accepted}
    (hdirectory : directory.Groups entries) {subject : Text}
    (hnone : directory.get? subject = none) : Request.naming subject entries = [] := by
  have hcontains : directory.contains subject = false := by rw [contains_eq_isSome, hnone]; rfl
  rw [Request.naming, List.map_eq_nil_iff, List.filter_eq_nil_iff]
  intro entry hentry hsubject
  have htrue := (hdirectory.contains_iff subject).2 ⟨entry, hentry, by simpa using hsubject⟩
  rw [hcontains] at htrue
  exact Bool.false_ne_true htrue

/-- Inserting the peer of one more rule takes that rule into the grouping. -/
theorem Groups.insert {directory : Directory} {entries : List Accepted}
    (hdirectory : directory.Groups entries) {peer : Peer} {entry : Accepted}
    (hidentifier : peer.identifier = entry.subject) (hpeer : peer.Groups [entry.request]) :
    (directory.insert peer).Groups (entries ++ [entry]) where
  contains_iff subject := by
    rw [contains_eq_isSome, get?_insert_eq_merge, hidentifier]
    simp only [List.mem_append, List.mem_singleton, or_and_right, exists_or, exists_eq_left]
    rw [← hdirectory.contains_iff, contains_eq_isSome]
    split
    next heq => simp [heq]
    next hne => simp [hne]
  peer subject found hfound := by
    rw [get?_insert_eq_merge, hidentifier] at hfound
    rw [Request.naming_append]
    split at hfound
    next heq =>
      have hnaming : Request.naming subject [entry] = [entry.request] := by
        simp [Request.naming, heq]
      rw [hnaming]
      cases hold : directory.get? subject with
      | none =>
        rw [hold, Option.merge_none_left, Option.some.injEq] at hfound
        rw [hdirectory.naming_eq_nil hold, List.nil_append, ← hfound]
        exact ⟨hidentifier.trans heq, hpeer⟩
      | some old =>
        rw [hold, Option.merge_some_some, Option.some.injEq] at hfound
        obtain ⟨hid, hgroups⟩ := hdirectory.peer subject old hold
        rw [← hfound]
        exact ⟨(Peer.identifier_merge old peer).trans hid, hgroups.merge hpeer⟩
    next hne =>
      have hnaming : Request.naming subject [entry] = [] := by simp [Request.naming, hne]
      rw [hnaming, List.append_nil]
      exact hdirectory.peer subject found hfound

end Directory

namespace Catalog

theorem Groups.insert {catalog : Catalog} {requests : List Request}
    (hcatalog : catalog.Groups requests) {request : Request} {filter : Text}
    (hfilter : request.properFilter? = some filter) :
    (catalog.insert filter).Groups (requests ++ [request]) := by
  intro fingerprint
  rw [get?_insert, hcatalog, List.filterMap_append, List.find?_append]
  simp only [List.filterMap_cons, hfilter, List.filterMap_nil]
  cases (requests.filterMap Request.properFilter?).find? (Fingerprint.ofText · = fingerprint) with
  | some text => simp
  | none => by_cases heq : Fingerprint.ofText filter = fingerprint <;> simp [heq]

theorem Groups.skip {catalog : Catalog} {requests : List Request}
    (hcatalog : catalog.Groups requests) {request : Request}
    (hfilter : request.properFilter? = none) : catalog.Groups (requests ++ [request]) := by
  intro fingerprint
  rw [hcatalog, List.filterMap_append]
  simp [hfilter]

end Catalog

namespace Session

/-- Directory and catalog are those of the given accepted rules. -/
def Grouped (entries : List Accepted) (session : Session) : Prop :=
  session.directory.Groups entries ∧ session.catalog.Groups (entries.map Accepted.request)

theorem grouped_new (autnum : Text) (config : Config) : Grouped [] (new autnum config) := by
  refine ⟨⟨?_, ?_⟩, ?_⟩
  · intro subject
    simp [new, Directory.contains_eq_isSome]
  · intro subject peer hpeer
    simp [new] at hpeer
  · intro fingerprint
    simp [new]

theorem Grouped.add {entries : List Accepted} {session : Session} {request : Request}
    {rule : ParsedRule} (hsession : Grouped entries session)
    (hread : ParsedRule.read request.text request.context = .ok rule) :
    Grouped (entries ++ [⟨request, rule.factor.subject⟩])
      (session.add (Contribution.ofRule request.text request.context rule.factor)) := by
  obtain ⟨hdirectory, hcatalog⟩ := hsession
  refine ⟨hdirectory.insert (Contribution.identifier_peer _) (Contribution.groups_peer hread), ?_⟩
  have hfilter := Contribution.properFilter?_eq hread
  rw [List.map_append, List.map_singleton]
  unfold Session.add
  split
  next hnone => exact hcatalog.skip (hfilter.trans hnone)
  next filter hsome => exact hcatalog.insert (hfilter.trans hsome)

/-- Incremental merging is grouping: after any run from a new session, the directory and the catalog
are those that the accepted rules give when they are grouped at once. -/
theorem run_groups_accepted (autnum : Text) (config : Config) (requests : List Request) :
    let result := (new autnum config).run requests
    result.2.directory.Groups (Accepted.ofTrace result.1) ∧
      result.2.catalog.Groups ((Accepted.ofTrace result.1).map Accepted.request) :=
  run_induction (fun _ _ _ _ hsession hread => hsession.add hread) requests
    (grouped_new autnum config)

end Session

end RoutingPolicy
