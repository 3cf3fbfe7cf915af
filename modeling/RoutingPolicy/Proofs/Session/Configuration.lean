import RoutingPolicy.Proofs.Session.Knowledge

/-!
# Configurations that read more

Whatever a configuration has read is read under a wider one too, and a multiprotocol rule is then asked
for at least the same IP versions. So a rule that is accepted stays accepted with the same contribution,
and one that cannot be read stays so. What a session learns and counts can only grow. Rules that are
skipped are the exception: a wider configuration may accept them.
-/

namespace RoutingPolicy

/-- The other configuration enables everything that this one does. -/
structure Config.Within (config other : Config) : Prop where
  ipv4 : config.ipv4 = true → other.ipv4 = true
  ipv6 : config.ipv6 = true → other.ipv6 = true
  defaults : config.defaults = true → other.defaults = true

/-- Rules are interpreted in the same way and asked for at least the same IP versions. -/
structure Context.Within (context other : Context) : Prop where
  direction : context.direction = other.direction
  multiprotocol : context.multiprotocol = other.multiprotocol
  isDefault : context.isDefault = other.isDefault
  requested : ∀ version, context.requested.contains version = true →
    other.requested.contains version = true

structure Request.Within (request other : Request) : Prop where
  text : request.text = other.text
  context : request.context.Within other.context

/-! ### Contexts -/

section Options

variable {Item : Type} {below : Item → Item → Prop} {first second : Option Item}

theorem option_le_guard {enabled wider : Bool} (henabled : enabled = true → wider = true)
    (hle : Option.le below first second) :
    Option.le below (if enabled then first else none) (if wider then second else none) := by
  cases enabled with
  | false =>
    rw [if_neg Bool.false_ne_true]
    generalize (if wider then second else none) = bound
    cases bound <;> trivial
  | true => rwa [if_pos rfl, if_pos (henabled rfl)]

theorem option_le_ite {p : Prop} [Decidable p] {other third : Option Item}
    (hfirst : Option.le below first second) (hother : Option.le below other third) :
    Option.le below (if p then first else other) (if p then second else third) := by
  split
  · exact hfirst
  · exact hother

end Options

theorem Context.within_refl (context : Context) : context.Within context :=
  ⟨rfl, rfl, rfl, fun _ => id⟩

namespace Config

theorem Within.versions {config other : Config} (hconfig : config.Within other)
    (version : IpVersion) (hversion : config.versions.contains version = true) :
    other.versions.contains version = true := by
  cases version with
  | ipv4 => exact hconfig.ipv4 hversion
  | ipv6 => exact hconfig.ipv6 hversion

theorem Within.contextFor? {config other : Config} (hconfig : config.Within other) (name : Text) :
    Option.le Context.Within (config.contextFor? name) (other.contextFor? name) := by
  have hplain (context : Context) : Option.le Context.Within
      (if config.ipv4 then some context else none) (if other.ipv4 then some context else none) :=
    option_le_guard hconfig.ipv4 context.within_refl
  have hmulti (context : Context) : Option.le Context.Within
      (if config.ipv6 then some (context.requesting config.versions) else none)
      (if other.ipv6 then some (context.requesting other.versions) else none) :=
    option_le_guard hconfig.ipv6 ⟨rfl, rfl, rfl, hconfig.versions⟩
  have hnone : Option.le Context.Within none none := trivial
  unfold Config.contextFor?
  exact option_le_ite (hplain _) (option_le_ite (hplain _)
    (option_le_ite (option_le_guard hconfig.defaults (hplain _)) (option_le_ite (hmulti _)
      (option_le_ite (hmulti _)
        (option_le_ite (option_le_guard hconfig.defaults (hmulti _)) hnone)))))

end Config

/-! ### Rules -/

theorem AddressFamily.acceptedBy_of_within {family : AddressFamily} {context other : Context}
    (hcontext : context.Within other) (haccepted : family.acceptedBy context.requested = true) :
    family.acceptedBy other.requested = true := by
  rw [acceptedBy, List.any_eq_true] at haccepted ⊢
  obtain ⟨version, hversion, haccepts⟩ := haccepted
  rw [IpVersions.toList, List.mem_filter] at hversion
  exact ⟨version, List.mem_filter.2 ⟨hversion.1, hcontext.requested version hversion.2⟩, haccepts⟩

namespace Request

variable {request other : Request}

/-- The other rule differs at most in the IP versions that are asked for. -/
theorem Within.eq_requesting (hrequest : request.Within other) :
    other = ⟨request.text, request.context.requesting other.context.requested⟩ := by
  obtain ⟨text, direction, multiprotocol, isDefault, requested⟩ := request
  obtain ⟨otherText, otherDirection, otherMultiprotocol, otherIsDefault, otherRequested⟩ := other
  obtain ⟨rfl, rfl, rfl, rfl, -⟩ := hrequest
  rfl

theorem Within.read_eq (hrequest : request.Within other) :
    ParsedRule.read other.text other.context = ParsedRule.read request.text request.context := by
  rw [hrequest.eq_requesting]
  rfl

theorem Within.ofRule_eq (hrequest : request.Within other) (factor : Factor) :
    Contribution.ofRule other.text other.context factor =
      Contribution.ofRule request.text request.context factor := by
  rw [hrequest.eq_requesting]
  rfl

/-- A rule that contributes something contributes the same under a wider context. -/
theorem Within.contribution? (hrequest : request.Within other) {contribution : Contribution}
    (hcontribution : request.contribution? = some contribution) :
    other.contribution? = some contribution := by
  rw [Request.contribution?, Analysis.ofRule] at hcontribution ⊢
  rw [hrequest.read_eq]
  cases hread : ParsedRule.read request.text request.context with
  | error error => simp [hread] at hcontribution
  | ok rule =>
    by_cases hfamily : rule.family.acceptedBy request.context.requested = true
    · have hwider := AddressFamily.acceptedBy_of_within hrequest.context hfamily
      simpa [hread, hfamily, hwider, hrequest.ofRule_eq] using hcontribution
    · simp [hread, hfamily] at hcontribution

theorem Within.error? (hrequest : request.Within other) : other.error? = request.error? := by
  rw [Request.error?, hrequest.read_eq, Request.error?]

end Request

/-! ### Policies -/

/-- Replacing results that are absent can only add to what a list gives. -/
theorem sublist_filterMap {Item Value : Type} {read wider : Item → Option Value}
    (hread : ∀ item value, read item = some value → wider item = some value) (items : List Item) :
    (items.filterMap read).Sublist (items.filterMap wider) := by
  induction items with
  | nil => exact List.Sublist.refl _
  | cons item items ih =>
    cases hitem : read item with
    | some value =>
      rw [List.filterMap_cons_some hitem, List.filterMap_cons_some (hread item value hitem)]
      exact ih.cons_cons value
    | none =>
      rw [List.filterMap_cons_none hitem]
      exact ih.trans ((List.sublist_cons_self item items).filterMap wider)

namespace Config

variable {config other : Config}

theorem Within.ofAttribute? (hconfig : config.Within other) (item : ObjectAttribute) :
    Option.le Request.Within (Request.ofAttribute? config item)
      (Request.ofAttribute? other item) := by
  have hcontext := hconfig.contextFor? item.name
  rw [Request.ofAttribute?, Request.ofAttribute?]
  cases hfirst : config.contextFor? item.name with
  | none => cases other.contextFor? item.name <;> trivial
  | some context =>
    cases hsecond : other.contextFor? item.name with
    | none =>
      rw [hfirst, hsecond] at hcontext
      exact hcontext.elim
    | some wider =>
      rw [hfirst, hsecond] at hcontext
      exact ⟨rfl, hcontext⟩

/-- What is read off the rules of a policy under one configuration, and does not change under wider
contexts, is among what is read off them under a wider configuration, in the same order. -/
theorem Within.sublist (hconfig : config.Within other) {Value : Type}
    (read : Request → Option Value)
    (hread : ∀ {request wider : Request}, request.Within wider →
      ∀ value, read request = some value → read wider = some value)
    (document : Text) :
    (((Call.readPolicy document).requests config).filterMap read).Sublist
      (((Call.readPolicy document).requests other).filterMap read) := by
  rw [Call.requests, Call.requests]
  cases Markup.Element.ofText? document with
  | none => exact List.Sublist.refl _
  | some root =>
    simp only [List.filterMap_filterMap]
    refine sublist_filterMap (fun item value hvalue => ?_) _
    have hitem := hconfig.ofAttribute? item
    rw [Option.bind_eq_some_iff] at hvalue ⊢
    obtain ⟨request, hrequest, hvalue⟩ := hvalue
    rw [hrequest] at hitem
    cases hwider : Request.ofAttribute? other item with
    | none =>
      rw [hwider] at hitem
      exact hitem.elim
    | some wider =>
      rw [hwider] at hitem
      exact ⟨wider, rfl, hread hitem value hvalue⟩

end Config

namespace Summary

/-- Accepted are the rules that contribute something, failed are those with an error. -/
theorem foldl_count_outcome (requests : List Request) (summary : Summary) :
    ((requests.map Request.outcome).foldl count summary).accepted =
        summary.accepted + (requests.filterMap Request.contribution?).length ∧
      ((requests.map Request.outcome).foldl count summary).failed =
        summary.failed + (requests.filterMap Request.error?).length := by
  induction requests generalizing summary with
  | nil => exact ⟨rfl, rfl⟩
  | cons request requests ih =>
    obtain ⟨haccepted, hfailed⟩ := ih (summary.count request.outcome)
    rw [List.map_cons, List.foldl_cons, haccepted, hfailed, List.filterMap_cons,
      List.filterMap_cons]
    obtain ⟨contribution, hcontribution, herror, houtcome⟩ |
      ⟨family, hcontribution, herror, houtcome⟩ | ⟨error, hcontribution, herror, houtcome⟩ :=
        request.outcome_cases
    · simp only [hcontribution, herror, houtcome, count, List.length_cons, and_true]
      omega
    · simp only [hcontribution, herror, houtcome, count, and_self]
    · simp only [hcontribution, herror, houtcome, count, List.length_cons, true_and]
      omega

end Summary

namespace Session

theorem within_new (autnum : Text) (config : Config) (session : Session) :
    (new autnum config).Within session where
  directory identifier := by
    rw [new, Directory.get?_empty]
    cases session.directory.get? identifier <;> trivial
  catalog fingerprint hcontains := by
    rw [new, Catalog.contains_eq_isSome, Catalog.get?_empty] at hcontains
    exact absurd hcontains Bool.false_ne_true

/-- Enabling more loses nothing: under a wider configuration a session reads the same document with at
least as many rules accepted and refused, and learns at least as much from it. -/
theorem readPolicy_within (autnum other : Text) {config wider : Config}
    (hconfig : config.Within wider) {document : Text}
    (hdocument : (Markup.Element.ofText? document).isSome = true) :
    ∃ summary summaryWider session sessionWider,
      (new autnum config).readPolicy document = (some summary, session) ∧
      (new other wider).readPolicy document = (some summaryWider, sessionWider) ∧
      session.Within sessionWider ∧ summary.accepted ≤ summaryWider.accepted ∧
      summary.failed ≤ summaryWider.failed := by
  obtain ⟨root, hroot⟩ := Option.isSome_iff_exists.1 hdocument
  have hcontributions := hconfig.sublist Request.contribution?
    (fun hrequest _ => hrequest.contribution?) document
  have herrors := hconfig.sublist Request.error?
    (fun hrequest _ herror => hrequest.error?.trans herror) document
  rw [readPolicy_eq, readPolicy_eq, hroot]
  refine ⟨_, _, _, _, rfl, rfl, ?_, ?_, ?_⟩
  · rw [run_eq, run_eq]
    refine (within_new autnum config _).foldl_add (Request.regular_contributions _) ?_
    intro contribution hcontribution
    exact knows_foldl_add (Request.regular_contributions _) _ contribution
      (hcontributions.subset hcontribution)
  · rw [(Summary.foldl_count_outcome _ _).1, (Summary.foldl_count_outcome _ _).1]
    exact Nat.add_le_add_left hcontributions.length_le _
  · rw [(Summary.foldl_count_outcome _ _).2, (Summary.foldl_count_outcome _ _).2]
    exact Nat.add_le_add_left herrors.length_le _

/-- A multiprotocol rule for IPv4, which is read but skipped as long as IPv4 is not enabled. -/
theorem readPolicy_within_standard :
    let config : Config := ⟨false, true, false⟩
    let document := "<objects><object type=\"aut-num\"><attributes>".toList ++
      "<attribute name=\"mp-import\" value=\"afi ipv4.unicast from AS1 accept AS-X\"/>".toList ++
      "</attributes></object></objects>".toList
    config.Within .standard ∧ (Markup.Element.ofText? document).isSome = true ∧
      ∃ summary summaryWider session sessionWider,
        (new "AS64500".toList config).readPolicy document = (some summary, session) ∧
        (new "AS64500".toList .standard).readPolicy document =
          (some summaryWider, sessionWider) ∧
        session.Within sessionWider ∧ summary.accepted ≤ summaryWider.accepted ∧
        summary.failed ≤ summaryWider.failed := by
  intro config document
  have hconfig : config.Within .standard := ⟨fun _ => rfl, fun _ => rfl, fun h => h⟩
  have hdocument : (Markup.Element.ofText? document).isSome = true := by decide +kernel
  exact ⟨hconfig, hdocument,
    readPolicy_within "AS64500".toList "AS64500".toList hconfig hdocument⟩

end Session

end RoutingPolicy
