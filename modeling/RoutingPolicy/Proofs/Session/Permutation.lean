import RoutingPolicy.Proofs.Session.Grouping

/-!
# The order of rules

Rules may be read in any order. What becomes of each of them is the same, and the directories differ
in nothing but the order of actions within a list. The catalogs have the same fingerprints. Where two
texts share one, the text that is read first is the one that stays.
-/

namespace RoutingPolicy

/-! ### Records that agree but for the order of actions -/

structure ActionList.Similar (list other : ActionList) : Prop where
  direction : list.direction = other.direction
  actions : list.actions.Perm other.actions

structure PeeringPoint.Similar (point other : PeeringPoint) : Prop where
  multiprotocol : point.multiprotocol = other.multiprotocol
  addresses : point.addresses = other.addresses
  actions : ∀ direction,
    Option.Rel ActionList.Similar (point.actions direction) (other.actions direction)

structure Peer.Similar (peer other : Peer) : Prop where
  identifier : peer.identifier = other.identifier
  filters : peer.filters = other.filters
  point? : ∀ addresses,
    Option.Rel PeeringPoint.Similar (peer.point? addresses) (other.point? addresses)

/-- Two directories with the same peers, which differ in the order of actions only. -/
def Directory.Similar (directory other : Directory) : Prop :=
  ∀ identifier, Option.Rel Peer.Similar (directory.get? identifier) (other.get? identifier)

/-! ### Groups of permuted rules -/

theorem perm_eraseDups {Item : Type} [BEq Item] [LawfulBEq Item] {items others : List Item}
    (hperm : items.Perm others) : items.eraseDups.Perm others.eraseDups := by
  rw [List.perm_ext_iff_of_nodup (nodup_eraseDups items) (nodup_eraseDups others)]
  intro item
  rw [List.mem_eraseDups, List.mem_eraseDups, hperm.mem_iff]

/-- Lists that are permutations of each other are both empty, or neither is. -/
theorem perm_cases {Item : Type} {items others : List Item} (hperm : items.Perm others) :
    (items = [] ∧ others = []) ∨
      ∃ item rest other restOthers, items = item :: rest ∧ others = other :: restOthers := by
  cases items with
  | nil => exact .inl ⟨rfl, hperm.nil_eq.symm⟩
  | cons item rest =>
    right
    have hne : others ≠ [] := by
      rintro rfl
      exact List.cons_ne_nil item rest hperm.eq_nil
    obtain ⟨other, restOthers, hothers⟩ := List.exists_cons_of_ne_nil hne
    exact ⟨item, rest, other, restOthers, rfl, hothers⟩

namespace Request

theorem groupedActions_perm (direction : Direction) {requests others : List Request}
    (hperm : requests.Perm others) :
    Option.Rel ActionList.Similar (groupedActions direction requests)
      (groupedActions direction others) := by
  have hacting := hperm.filter (acts direction)
  unfold groupedActions
  obtain ⟨hfirst, hsecond⟩ | ⟨request, acting, other, actingOthers, hfirst, hsecond⟩ :=
    perm_cases hacting
  · rw [hfirst, hsecond]
    exact .none
  · rw [hfirst, hsecond] at hacting ⊢
    exact .some ⟨rfl, perm_eraseDups (hacting.flatMap_right actions)⟩

theorem groupedPoint_perm (key : Option AddressPair) {requests others : List Request}
    (hperm : requests.Perm others) :
    Option.Rel PeeringPoint.Similar (groupedPoint key requests) (groupedPoint key others) := by
  have hthere := hperm.filter (·.key = key)
  unfold groupedPoint
  obtain ⟨hfirst, hsecond⟩ | ⟨request, there, other, thereOthers, hfirst, hsecond⟩ :=
    perm_cases hthere
  · rw [hfirst, hsecond]
    exact .none
  · rw [hfirst, hsecond] at hthere ⊢
    refine .some ⟨hthere.any_eq (f := fun request => request.context.multiprotocol), rfl, ?_⟩
    intro direction
    cases direction <;> exact groupedActions_perm _ hthere

theorem naming_perm (subject : Text) {entries others : List Accepted}
    (hperm : entries.Perm others) : (naming subject entries).Perm (naming subject others) :=
  (hperm.filter _).map _

end Request

theorem Peer.Groups.similar {peer other : Peer} {requests others : List Request}
    (hpeer : peer.Groups requests) (hother : other.Groups others) (hperm : requests.Perm others)
    (hidentifier : peer.identifier = other.identifier) : peer.Similar other where
  identifier := hidentifier
  filters := by
    apply Std.ExtTreeSet.ext_mem
    intro ref
    simp only [hpeer.mem_filters, hother.mem_filters, hperm.mem_iff]
  point? addresses := by
    rw [hpeer.point?, hother.point?]
    exact Request.groupedPoint_perm addresses hperm

theorem Directory.Groups.similar {directory other : Directory} {entries others : List Accepted}
    (hdirectory : directory.Groups entries) (hother : other.Groups others)
    (hperm : entries.Perm others) : directory.Similar other := by
  intro identifier
  have hcontains : directory.contains identifier = true ↔ other.contains identifier = true := by
    simp only [hdirectory.contains_iff, hother.contains_iff, hperm.mem_iff]
  rw [contains_eq_isSome, contains_eq_isSome] at hcontains
  cases hfirst : directory.get? identifier with
  | none =>
    cases hsecond : other.get? identifier with
    | none => exact .none
    | some second => simp [hfirst, hsecond] at hcontains
  | some first =>
    cases hsecond : other.get? identifier with
    | none => simp [hfirst, hsecond] at hcontains
    | some second =>
      obtain ⟨hidentifier, hgroups⟩ := hdirectory.peer identifier first hfirst
      obtain ⟨hidentifierOther, hgroupsOther⟩ := hother.peer identifier second hsecond
      exact .some (hgroups.similar hgroupsOther (Request.naming_perm identifier hperm)
        (hidentifier.trans hidentifierOther.symm))

/-! ### Fingerprints in permuted lists of texts -/

/-- No two of the texts share a fingerprint. -/
def Fingerprint.Separates (texts : List Text) : Prop :=
  ∀ first ∈ texts, ∀ second ∈ texts, ofText first = ofText second → first = second

namespace Catalog

theorem Groups.contains_iff {catalog : Catalog} {requests : List Request}
    (hcatalog : catalog.Groups requests) (fingerprint : Fingerprint) :
    catalog.contains fingerprint = true ↔
      ∃ filter ∈ requests.filterMap Request.properFilter?,
        Fingerprint.ofText filter = fingerprint := by
  rw [contains_eq_isSome, hcatalog, List.find?_isSome]
  simp only [decide_eq_true_eq]

/-- A text that shares its fingerprint with no other one is found under it. -/
theorem Groups.get?_eq_some_iff {catalog : Catalog} {requests : List Request}
    (hcatalog : catalog.Groups requests)
    (hseparates : Fingerprint.Separates (requests.filterMap Request.properFilter?))
    (fingerprint : Fingerprint) (text : Text) :
    catalog.get? fingerprint = some text ↔
      text ∈ requests.filterMap Request.properFilter? ∧
        Fingerprint.ofText text = fingerprint := by
  rw [hcatalog]
  constructor
  · intro hfind
    exact ⟨List.mem_of_find?_eq_some hfind, by simpa using List.find?_some hfind⟩
  · rintro ⟨hmem, hfingerprint⟩
    cases hfind : (requests.filterMap Request.properFilter?).find?
        (Fingerprint.ofText · = fingerprint) with
    | none => simpa [hfingerprint] using List.find?_eq_none.1 hfind text hmem
    | some found =>
      have hfound : Fingerprint.ofText found = fingerprint := by simpa using List.find?_some hfind
      rw [hseparates found (List.mem_of_find?_eq_some hfind) text hmem
        (hfound.trans hfingerprint.symm)]

theorem Groups.contains_perm {catalog other : Catalog} {requests others : List Request}
    (hcatalog : catalog.Groups requests) (hother : other.Groups others)
    (hperm : requests.Perm others) (fingerprint : Fingerprint) :
    catalog.contains fingerprint = other.contains fingerprint := by
  have hfilters := hperm.filterMap Request.properFilter?
  rw [Bool.eq_iff_iff, hcatalog.contains_iff, hother.contains_iff]
  simp only [hfilters.mem_iff]

/-- The same filters make the same catalog when their fingerprints tell them apart. -/
theorem Groups.eq_of_perm {catalog other : Catalog} {requests others : List Request}
    (hcatalog : catalog.Groups requests) (hother : other.Groups others)
    (hperm : requests.Perm others)
    (hseparates : Fingerprint.Separates (requests.filterMap Request.properFilter?)) :
    catalog = other := by
  have hfilters := hperm.filterMap Request.properFilter?
  have hseparatesOther : Fingerprint.Separates (others.filterMap Request.properFilter?) := by
    intro first hfirst second hsecond
    exact hseparates first (hfilters.mem_iff.2 hfirst) second (hfilters.mem_iff.2 hsecond)
  ext fingerprint text
  rw [hcatalog.get?_eq_some_iff hseparates,
    hother.get?_eq_some_iff hseparatesOther, hfilters.mem_iff]

end Catalog

/-! ### Runs of permuted rules -/

/-- The filters that accepted rules put into the catalog. -/
def Accepted.filters (entries : List Accepted) : List Text :=
  (entries.map request).filterMap Request.properFilter?

namespace Session

theorem trace_run (session : Session) (requests : List Request) :
    (session.run requests).1 = requests.map fun request => (request, request.outcome) := by
  rw [run_eq]

theorem grouped_run (autnum : Text) (config : Config) (requests : List Request) :
    Grouped (Accepted.ofTrace ((new autnum config).run requests).1)
      ((new autnum config).run requests).2 :=
  run_induction (fun _ _ _ _ hsession hread => hsession.add hread) requests
    (grouped_new autnum config)

/-- Two runs over the same rules in different orders have the same outcome for each rule, similar
directories and catalogs with the same fingerprints. The catalogs are equal if the fingerprints tell
the filters apart. -/
theorem run_perm (autnum : Text) (config : Config) {requests others : List Request}
    (hperm : requests.Perm others) :
    let first := (new autnum config).run requests
    let second := (new autnum config).run others
    (first.1 = requests.map (fun request => (request, request.outcome)) ∧
      second.1 = others.map fun request => (request, request.outcome)) ∧
    first.2.directory.Similar second.2.directory ∧
    (∀ fingerprint,
      first.2.catalog.contains fingerprint = second.2.catalog.contains fingerprint) ∧
    (Fingerprint.Separates (Accepted.filters (Accepted.ofTrace first.1)) →
      first.2.catalog = second.2.catalog) := by
  intro first second
  obtain ⟨hdirectory, hcatalog⟩ := grouped_run autnum config requests
  obtain ⟨hdirectoryOther, hcatalogOther⟩ := grouped_run autnum config others
  have hentries : (Accepted.ofTrace first.1).Perm (Accepted.ofTrace second.1) := by
    rw [trace_run, trace_run]
    exact (hperm.map _).filterMap _
  have hrequests := hentries.map Accepted.request
  exact ⟨⟨trace_run _ _, trace_run _ _⟩, hdirectory.similar hdirectoryOther hentries,
    hcatalog.contains_perm hcatalogOther hrequests, hcatalog.eq_of_perm hcatalogOther hrequests⟩

/-- Two rules that prefer routes of one peer differently, read in either order. -/
theorem run_perm_two_preferences :
    let first : Request :=
      ⟨"FROM AS1 ACTION pref=1; ACCEPT AS-X".toList, .importing false⟩
    let second : Request :=
      ⟨"FROM AS1 ACTION pref=2; ACCEPT AS-Y".toList, .importing false⟩
    let session := (new [] .standard).run [first, second]
    let swapped := (new [] .standard).run [second, first]
    session.2.directory.Similar swapped.2.directory ∧ session.2.catalog = swapped.2.catalog := by
  intro first second session swapped
  obtain ⟨-, hdirectory, -, hcatalog⟩ :=
    run_perm [] .standard (List.Perm.swap second first [])
  refine ⟨hdirectory, hcatalog ?_⟩
  have hfilters : Accepted.filters (Accepted.ofTrace session.1) = ["AS-X".toList, "AS-Y".toList] := by
    rw [trace_run]
    decide +kernel
  rw [hfilters]
  unfold Fingerprint.Separates
  decide +kernel

end Session

end RoutingPolicy
