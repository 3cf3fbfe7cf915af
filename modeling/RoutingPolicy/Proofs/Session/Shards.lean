import RoutingPolicy.Proofs.Filter.Catalog
import RoutingPolicy.Proofs.Session.WellFormed

/-!
# Policies read in parts

The rules of a policy can be divided between two sessions. Inserting the peers and the filters of the
second session into the first one gives what one session makes of all the rules. The second session
need not know anything of the first: what one rule adds to it is added to the whole at the same place.
-/

namespace RoutingPolicy

namespace Session

/-- Peers and texts are stored where a look-up expects them. -/
structure Regular (session : Session) : Prop where
  directory : session.directory.Regular
  catalog : session.catalog.Keyed

/-- A session has learnt what two sessions have learnt, the first one before the second. -/
structure Joins (whole first second : Session) : Prop where
  directory : whole.directory.Joins first.directory second.directory
  catalog : whole.catalog.Joins first.catalog second.catalog

theorem regular_new (autnum : Text) (config : Config) : (new autnum config).Regular :=
  ⟨Directory.regular_empty, Catalog.keyed_empty⟩

theorem Regular.add {session : Session} (hsession : session.Regular) {contribution : Contribution}
    (hcontribution : contribution.peer.Regular) : (session.add contribution).Regular where
  directory := hsession.directory.insert hcontribution
  catalog := by
    rw [Session.add]
    cases contribution.filter with
    | none => exact hsession.catalog
    | some filter => exact hsession.catalog.insert filter

theorem joins_new (session : Session) (autnum : Text) (config : Config) :
    session.Joins session (new autnum config) :=
  ⟨session.directory.joins_empty, session.catalog.joins_empty⟩

theorem Joins.add {whole first second : Session} (hwhole : whole.Joins first second)
    (hsecond : second.Regular) {contribution : Contribution}
    (hcontribution : contribution.peer.Regular) :
    (whole.add contribution).Joins first (second.add contribution) where
  directory := hwhole.directory.insert hsecond.directory hcontribution
  catalog := by
    rw [Session.add, Session.add]
    cases contribution.filter with
    | none => exact hwhole.catalog
    | some filter => exact hwhole.catalog.insert filter

/-- What is added to the second of two joined sessions and to the whole keeps them joined. -/
theorem Joins.foldl_add {contributions : List Contribution}
    (hcontributions : ∀ contribution ∈ contributions, contribution.peer.Regular)
    {whole first second : Session} (hwhole : whole.Joins first second) (hsecond : second.Regular) :
    (contributions.foldl Session.add second).Regular ∧
      (contributions.foldl Session.add whole).Joins first
        (contributions.foldl Session.add second) := by
  induction contributions generalizing whole second with
  | nil => exact ⟨hsecond, hwhole⟩
  | cons contribution contributions ih =>
    have hcontribution := hcontributions contribution List.mem_cons_self
    exact ih (fun other hother => hcontributions other (List.mem_cons_of_mem contribution hother))
      (hwhole.add hsecond hcontribution) (hsecond.add hcontribution)

/-- Two sessions that divide the rules of a policy between them have learnt together what one session
learns from all the rules: inserting the peers of the second into the directory of the first, in any
order, gives the directory of the whole, and inserting the texts gives its catalog. -/
theorem run_append_joins (autnum other : Text) (config otherConfig : Config)
    (requests others : List Request) {peers : List Peer} {texts : List Text}
    (hpeers : peers.Perm ((new other otherConfig).run others).2.directory.peerList)
    (htexts : texts.Perm ((new other otherConfig).run others).2.catalog.textList) :
    let first := ((new autnum config).run requests).2
    let whole := ((new autnum config).run (requests ++ others)).2
    peers.foldl Directory.insert first.directory = whole.directory ∧
      texts.foldl Catalog.insert first.catalog = whole.catalog := by
  intro first whole
  obtain ⟨hsecond, hjoins⟩ :=
    (first.joins_new other otherConfig).foldl_add (Request.regular_contributions others)
      (regular_new other otherConfig)
  have hwhole : whole = (others.filterMap Request.contribution?).foldl add first := by
    simp only [whole, first, run_append, run_eq]
  rw [run_eq] at hpeers htexts
  rw [hwhole]
  exact ⟨hjoins.directory.foldl_insert hsecond.directory hpeers,
    hjoins.catalog.foldl_insert hsecond.catalog htexts⟩

/-- Two peers of one session are put into the directory of another session in reverse order. One of
them is known there, with another preference. -/
theorem run_append_joins_two_peers :
    let requests : List Request :=
      [⟨"FROM AS1 ACTION pref=1; ACCEPT AS-X".toList, .importing false⟩]
    let others : List Request :=
      [⟨"FROM AS1 ACTION pref=2; ACCEPT AS-Y".toList, .importing false⟩,
        ⟨"TO AS2 ANNOUNCE AS-Z".toList, .exporting false⟩]
    let first := ((new "AS64500".toList .standard).run requests).2
    let second := ((new "AS64501".toList .standard).run others).2
    let whole := ((new "AS64500".toList .standard).run (requests ++ others)).2
    second.directory.peerList.reverse.Perm second.directory.peerList ∧
      second.catalog.textList.Perm second.catalog.textList ∧
      second.directory.peerList.reverse.foldl Directory.insert first.directory =
        whole.directory ∧
      second.catalog.textList.foldl Catalog.insert first.catalog = whole.catalog := by
  intro requests others first second whole
  have hpeers := List.reverse_perm second.directory.peerList
  have htexts := List.Perm.refl second.catalog.textList
  exact ⟨hpeers, htexts, run_append_joins "AS64500".toList "AS64501".toList .standard .standard
    requests others hpeers htexts⟩

end Session

end RoutingPolicy
