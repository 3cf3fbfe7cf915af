import RoutingPolicy.Proofs.Session.Knowledge
import RoutingPolicy.Report

/-!
# Peers refer to the filters in the catalog

The directory and the catalog are changed one after the other, and they stay in step: what peers refer
to is what the catalog has. Fingerprints may collide. A text that finds its fingerprint taken is not
stored, but then the reference to it leads to the text that is.
-/

namespace RoutingPolicy

/-- Some peer has a filter with this fingerprint in use. -/
def Directory.Refers (directory : Directory) (fingerprint : Fingerprint) : Prop :=
  ∃ identifier peer, directory.get? identifier = some peer ∧
    ∃ ref ∈ peer.filters, ref.fingerprint = fingerprint

/-- A catalog has every text of an earlier one still under its fingerprint. -/
def Catalog.Extends (later earlier : Catalog) : Prop :=
  ∀ fingerprint text, earlier.get? fingerprint = some text → later.get? fingerprint = some text

/-- The catalog has the filters that the directory refers to and no others, each under the fingerprint
of its text. -/
structure Session.Linked (session : Session) : Prop where
  contains_iff : ∀ fingerprint,
    session.catalog.contains fingerprint = true ↔ session.directory.Refers fingerprint
  fingerprint : ∀ fingerprint text, session.catalog.get? fingerprint = some text →
    Fingerprint.ofText text = fingerprint
  proper : ∀ fingerprint text, session.catalog.get? fingerprint = some text →
    Solid text ∧ text ≠ anyFilter

namespace Catalog

theorem extends_insert (catalog : Catalog) (filter : Text) :
    (catalog.insert filter).Extends catalog := by
  intro fingerprint text htext
  rw [get?_insert, if_neg, htext]
  rintro ⟨-, hnone⟩
  simp [hnone] at htext

/-- What is found after a text was inserted was there before, or is that text. -/
theorem get?_insert_cases {catalog : Catalog} {filter text : Text} {fingerprint : Fingerprint}
    (htext : (catalog.insert filter).get? fingerprint = some text) :
    catalog.get? fingerprint = some text ∨
      (Fingerprint.ofText filter = fingerprint ∧ filter = text) := by
  rw [get?_insert] at htext
  split at htext
  next hnew => exact .inr ⟨hnew.1, Option.some.inj htext⟩
  next => exact .inl htext

end Catalog

namespace Directory

/-- Inserting a peer adds its references under its identifier. -/
theorem mem_filters_insert (directory : Directory) (peer : Peer) (identifier : Text)
    (ref : FilterRef) :
    (∃ found, (directory.insert peer).get? identifier = some found ∧ ref ∈ found.filters) ↔
      (∃ found, directory.get? identifier = some found ∧ ref ∈ found.filters) ∨
        (peer.identifier = identifier ∧ ref ∈ peer.filters) := by
  rw [get?_insert_eq_merge]
  by_cases hidentifier : peer.identifier = identifier
  · rw [if_pos hidentifier]
    cases directory.get? identifier with
    | none => simp [hidentifier]
    | some found => simp [hidentifier, Peer.mem_filters_merge]
  · simp [hidentifier]

theorem refers_insert_iff (directory : Directory) (peer : Peer) (fingerprint : Fingerprint) :
    (directory.insert peer).Refers fingerprint ↔
      directory.Refers fingerprint ∨ ∃ ref ∈ peer.filters, ref.fingerprint = fingerprint := by
  constructor
  · rintro ⟨identifier, found, hfound, ref, href, hfingerprint⟩
    obtain ⟨old, hold, href⟩ | ⟨-, href⟩ :=
      (directory.mem_filters_insert peer identifier ref).1 ⟨found, hfound, href⟩
    · exact .inl ⟨identifier, old, hold, ref, href, hfingerprint⟩
    · exact .inr ⟨ref, href, hfingerprint⟩
  · rintro (⟨identifier, old, hold, ref, href, hfingerprint⟩ | ⟨ref, href, hfingerprint⟩)
    · obtain ⟨found, hfound, href⟩ :=
        (directory.mem_filters_insert peer identifier ref).2 (.inl ⟨old, hold, href⟩)
      exact ⟨identifier, found, hfound, ref, href, hfingerprint⟩
    · obtain ⟨found, hfound, href⟩ :=
        (directory.mem_filters_insert peer peer.identifier ref).2 (.inr ⟨rfl, href⟩)
      exact ⟨peer.identifier, found, hfound, ref, href, hfingerprint⟩

end Directory

namespace Contribution

theorem exists_ref_peer_iff (contribution : Contribution) (fingerprint : Fingerprint) :
    (∃ ref ∈ contribution.peer.filters, ref.fingerprint = fingerprint) ↔
      ∃ filter, contribution.filter = some filter ∧ Fingerprint.ofText filter = fingerprint := by
  simp only [contribution.single_peer.mem_filters]
  constructor
  · rintro ⟨ref, ⟨filter, hfilter, rfl⟩, hfingerprint⟩
    exact ⟨filter, hfilter, hfingerprint⟩
  · rintro ⟨filter, hfilter, hfingerprint⟩
    exact ⟨_, ⟨filter, hfilter, rfl⟩, hfingerprint⟩

/-- A rule contributes no filter that is empty, has blanks around it or lets every route pass. -/
theorem proper_filter {text filter : Text} {context : Context} {rule : ParsedRule}
    (hread : ParsedRule.read text context = .ok rule)
    (hfilter : (ofRule text context rule.factor).filter = some filter) :
    Solid filter ∧ filter ≠ anyFilter := by
  rw [ofRule, Factor.isAny] at hfilter
  split at hfilter
  next => simp at hfilter
  next hany =>
    rw [← Option.some.inj hfilter]
    refine ⟨(ParsedRule.wellFormed_factor hread).filter, ?_⟩
    simpa using hany

end Contribution

namespace Session

/-- A text in the catalog was there before a contribution was added, or is its filter. -/
theorem get?_add_cases {session : Session} {contribution : Contribution}
    {fingerprint : Fingerprint} {text : Text}
    (htext : (session.add contribution).catalog.get? fingerprint = some text) :
    session.catalog.get? fingerprint = some text ∨
      (contribution.filter = some text ∧ Fingerprint.ofText text = fingerprint) := by
  rw [add] at htext
  cases hfilter : contribution.filter with
  | none =>
    rw [hfilter] at htext
    exact .inl htext
  | some filter =>
    rw [hfilter] at htext
    obtain hold | ⟨hfingerprint, rfl⟩ := Catalog.get?_insert_cases htext
    · exact .inl hold
    · exact .inr ⟨rfl, hfingerprint⟩

theorem Linked.add {session : Session} (hsession : session.Linked) {contribution : Contribution}
    (hproper : ∀ filter, contribution.filter = some filter → Solid filter ∧ filter ≠ anyFilter) :
    (session.add contribution).Linked where
  contains_iff fingerprint := by
    rw [contains_add_iff, hsession.contains_iff, Session.add, Directory.refers_insert_iff,
      Contribution.exists_ref_peer_iff]
  fingerprint fingerprint text htext := by
    obtain hold | ⟨-, hfingerprint⟩ := get?_add_cases htext
    · exact hsession.fingerprint fingerprint text hold
    · exact hfingerprint
  proper fingerprint text htext := by
    obtain hold | ⟨hfilter, -⟩ := get?_add_cases htext
    · exact hsession.proper fingerprint text hold
    · exact hproper text hfilter

theorem extends_add (session : Session) (contribution : Contribution) :
    (session.add contribution).catalog.Extends session.catalog := by
  rw [add]
  cases contribution.filter with
  | none => exact fun _ _ htext => htext
  | some filter => exact session.catalog.extends_insert filter

theorem linked_new (autnum : Text) (config : Config) : (new autnum config).Linked := by
  refine ⟨?_, ?_, ?_⟩
  · intro fingerprint
    simp [new, Catalog.contains_eq_isSome, Directory.Refers]
  · intro fingerprint text htext
    simp [new] at htext
  · intro fingerprint text htext
    simp [new] at htext

theorem extends_performAll (session : Session) (calls : List Call) :
    (session.performAll calls).catalog.Extends session.catalog := by
  refine @performAll_induction (fun later => later.catalog.Extends session.catalog) ?_ _ ?_ calls
  · intro later request rule hlater _ fingerprint text htext
    exact later.extends_add _ fingerprint text (hlater fingerprint text htext)
  · exact fun _ _ htext => htext

/-- A report finds a text for every filter that a linked directory refers to. -/
theorem Linked.filterLine {session : Session} (hsession : session.Linked) {entry : Text × Peer}
    (hentry : entry ∈ session.directory.toList) {ref : FilterRef} (href : ref ∈ entry.2.filterList) :
    ∃ text : Text, text ≠ [] ∧ session.catalog.get? ref.fingerprint = some text ∧
      Report.filterLine session.catalog ref =
        "  filter ".toList ++ ref.fingerprint.toText ++ [' '] ++ text := by
  have hpeer : session.directory.get? entry.1 = some entry.2 :=
    Std.ExtTreeMap.mem_toList_iff_getElem?_eq_some.1 hentry
  have hrefers : session.directory.Refers ref.fingerprint :=
    ⟨entry.1, entry.2, hpeer, ref, Std.ExtTreeSet.mem_toList.1 href, rfl⟩
  have hcontains := (hsession.contains_iff ref.fingerprint).2 hrefers
  rw [Catalog.contains_eq_isSome, Option.isSome_iff_exists] at hcontains
  obtain ⟨text, htext⟩ := hcontains
  refine ⟨text, (hsession.proper _ text htext).1.ne_nil, htext, ?_⟩
  unfold Report.filterLine
  rw [htext, Option.getD_some]

/-- In every state that calls lead to, the catalog has what the directory refers to, no later call
changes a text in it, and a report has a text for every filter of every peer. -/
theorem linked_performAll (autnum : Text) (config : Config) (calls : List Call) :
    let session := (new autnum config).performAll calls
    session.Linked ∧
      (∀ later, (session.performAll later).catalog.Extends session.catalog) ∧
      ∀ entry ∈ session.directory.toList, ∀ ref ∈ entry.2.filterList,
        ∃ text : Text, text ≠ [] ∧ session.catalog.get? ref.fingerprint = some text ∧
          Report.filterLine session.catalog ref =
            "  filter ".toList ++ ref.fingerprint.toText ++ [' '] ++ text := by
  have hlinked : ((new autnum config).performAll calls).Linked := by
    refine @performAll_induction Linked ?_ _ (linked_new autnum config) calls
    intro session request rule hsession hread
    exact hsession.add fun _ hfilter => Contribution.proper_filter hread hfilter
  exact ⟨hlinked, extends_performAll _, fun _ hentry _ href => hlinked.filterLine hentry href⟩

end Session

end RoutingPolicy
