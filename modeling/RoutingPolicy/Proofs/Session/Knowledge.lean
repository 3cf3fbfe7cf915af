import RoutingPolicy.Proofs.Filter.Catalog
import RoutingPolicy.Proofs.Peering.Within
import RoutingPolicy.Proofs.Session.WellFormed

/-!
# What a session knows

A session knows a contribution when its directory has everything that the contribution says and its
catalog has the fingerprint of the filter. A session comes to know what is added to it, never forgets
it, and is not changed when it is added once more. A session with all that another one has learnt is
one that knows everything added to the other.
-/

namespace RoutingPolicy

namespace Session

structure Knows (session : Session) (contribution : Contribution) : Prop where
  directory : session.directory.Covers contribution.peer
  catalog : ∀ filter, contribution.filter = some filter →
    session.catalog.contains (Fingerprint.ofText filter) = true

/-- The other session has learnt everything that this one has. -/
structure Within (session other : Session) : Prop where
  directory : session.directory.Within other.directory
  catalog : ∀ fingerprint, session.catalog.contains fingerprint = true →
    other.catalog.contains fingerprint = true

variable {session other : Session} {contribution : Contribution}

theorem contains_add_iff (session : Session) (contribution : Contribution)
    (fingerprint : Fingerprint) :
    (session.add contribution).catalog.contains fingerprint = true ↔
      session.catalog.contains fingerprint = true ∨
        ∃ filter, contribution.filter = some filter ∧ Fingerprint.ofText filter = fingerprint := by
  rw [add]
  cases contribution.filter with
  | none => simp
  | some filter => simp [Catalog.contains_insert_iff]

theorem within_add (session : Session) (hcontribution : contribution.peer.Regular) :
    session.Within (session.add contribution) where
  directory := session.directory.within_insert hcontribution
  catalog fingerprint hcontains := (session.contains_add_iff _ fingerprint).2 (.inl hcontains)

theorem knows_add (session : Session) (hcontribution : contribution.peer.Regular) :
    (session.add contribution).Knows contribution where
  directory := session.directory.covers_insert hcontribution
  catalog filter hfilter := (session.contains_add_iff _ _).2 (.inr ⟨filter, hfilter, rfl⟩)

theorem Knows.mono (hknows : session.Knows contribution) (hsession : session.Within other) :
    other.Knows contribution where
  directory := hknows.directory.mono hsession.directory
  catalog filter hfilter := hsession.catalog _ (hknows.catalog filter hfilter)

/-- What is known changes nothing. -/
theorem Knows.add_eq (hknows : session.Knows contribution)
    (hcontribution : contribution.peer.Regular) : session.add contribution = session := by
  rw [add, hknows.directory.insert_eq hcontribution]
  cases hfilter : contribution.filter with
  | none => rfl
  | some filter => simp only [Catalog.insert_eq (hknows.catalog filter hfilter)]

theorem Within.add (hsession : session.Within other) (hknows : other.Knows contribution)
    (hcontribution : contribution.peer.Regular) : (session.add contribution).Within other where
  directory := hsession.directory.insert hknows.directory hcontribution
  catalog fingerprint hcontains := by
    obtain hcontains | ⟨filter, hfilter, rfl⟩ := (session.contains_add_iff _ _).1 hcontains
    · exact hsession.catalog fingerprint hcontains
    · exact hknows.catalog filter hfilter

theorem Within.trans {third : Session} (hother : session.Within other)
    (hthird : other.Within third) : session.Within third where
  directory identifier :=
    Peer.isJoin_merge.option.trans _ _ _ (hother.directory identifier) (hthird.directory identifier)
  catalog fingerprint hcontains := hthird.catalog fingerprint (hother.catalog fingerprint hcontains)

theorem within_refl (session : Session) : session.Within session where
  directory _ := Peer.isJoin_merge.option.refl _
  catalog _ hcontains := hcontains

/-! ### What a session knows after many additions -/

variable {contributions : List Contribution}

theorem within_foldl_add
    (hregular : ∀ contribution ∈ contributions, contribution.peer.Regular) (session : Session) :
    session.Within (contributions.foldl add session) := by
  induction contributions generalizing session with
  | nil => exact within_refl session
  | cons contribution contributions ih =>
    obtain ⟨hcontribution, hregular⟩ := List.forall_mem_cons.1 hregular
    exact (session.within_add hcontribution).trans (ih hregular _)

theorem knows_foldl_add (hregular : ∀ contribution ∈ contributions, contribution.peer.Regular)
    (session : Session) :
    ∀ contribution ∈ contributions, (contributions.foldl add session).Knows contribution := by
  induction contributions generalizing session with
  | nil => exact List.forall_mem_nil _
  | cons contribution contributions ih =>
    obtain ⟨hcontribution, hregular⟩ := List.forall_mem_cons.1 hregular
    refine List.forall_mem_cons.2 ⟨?_, ih hregular _⟩
    exact (session.knows_add hcontribution).mono (within_foldl_add hregular _)

theorem foldl_add_eq_self (hregular : ∀ contribution ∈ contributions, contribution.peer.Regular)
    (hknows : ∀ contribution ∈ contributions, session.Knows contribution) :
    contributions.foldl add session = session := by
  induction contributions with
  | nil => rfl
  | cons contribution contributions ih =>
    obtain ⟨hcontribution, hregular⟩ := List.forall_mem_cons.1 hregular
    obtain ⟨hknown, hknows⟩ := List.forall_mem_cons.1 hknows
    rw [List.foldl_cons, hknown.add_eq hcontribution, ih hregular hknows]

theorem Within.foldl_add (hregular : ∀ contribution ∈ contributions, contribution.peer.Regular)
    (hknows : ∀ contribution ∈ contributions, other.Knows contribution)
    (hsession : session.Within other) : (contributions.foldl Session.add session).Within other := by
  induction contributions generalizing session with
  | nil => exact hsession
  | cons contribution contributions ih =>
    obtain ⟨hcontribution, hregular⟩ := List.forall_mem_cons.1 hregular
    obtain ⟨hknown, hknows⟩ := List.forall_mem_cons.1 hknows
    exact ih hregular hknows (hsession.add hknown hcontribution)

end Session

end RoutingPolicy
