import RoutingPolicy.Peering.Directory

/-!
# Merging seen through look-ups

Inserting a peer merges records on four levels: peers in the directory, points in a peer, slots in
a point and actions in a slot. On each level the result is described by what a look-up finds: the
two records where both sides have one, and the one there is otherwise. This holds of records that
are stored where their own data says, which is what `Peer.Keyed` and `PeeringPoint.Directed` state.
-/

namespace RoutingPolicy

/-! ### First occurrences -/

section FirstOccurrences

variable {Item : Type} [BEq Item] [LawfulBEq Item]

theorem filter_eraseDups (p : Item → Bool) (items : List Item) :
    items.eraseDups.filter p = (items.filter p).eraseDups := by
  match items with
  | [] => rfl
  | item :: items =>
    have hshorter := List.length_filter_le (fun other => !other == item) items
    rw [List.eraseDups_cons, List.filter_cons, List.filter_cons, filter_eraseDups p]
    split
    next =>
      rw [List.eraseDups_cons, List.filter_filter, List.filter_filter]
      simp only [Bool.and_comm]
    next hp =>
      -- what `p` keeps differs from `item`, so nothing is lost by dropping `item` first
      rw [List.filter_filter]
      congr 1
      refine List.filter_congr fun other _ => ?_
      by_cases hother : other = item
      · simp_all
      · simp [hother]
termination_by items.length
decreasing_by simp only [List.length_cons]; omega

theorem eraseDups_of_nodup {items : List Item} (hnodup : items.Nodup) :
    items.eraseDups = items := by
  induction items with
  | nil => rfl
  | cons item items ih =>
    rw [List.nodup_cons] at hnodup
    have hkeep : items.filter (fun other => !other == item) = items := by
      refine List.filter_eq_self.2 fun other hother => ?_
      have hne : other ≠ item := fun heq => hnodup.1 (heq ▸ hother)
      simp [hne]
    rw [List.eraseDups_cons, hkeep, ih hnodup.2]

theorem eraseDups_eraseDups (items : List Item) : items.eraseDups.eraseDups = items.eraseDups := by
  match items with
  | [] => rfl
  | item :: items =>
    have hshorter := List.length_filter_le (fun other => !other == item) items
    rw [List.eraseDups_cons, List.eraseDups_cons, filter_eraseDups, List.filter_filter]
    simp only [Bool.and_self]
    rw [eraseDups_eraseDups]
termination_by items.length
decreasing_by simp only [List.length_cons]; omega

theorem nodup_eraseDups (items : List Item) : items.eraseDups.Nodup := by
  match items with
  | [] => exact List.nodup_nil
  | item :: items =>
    have hshorter := List.length_filter_le (fun other => !other == item) items
    rw [List.eraseDups_cons, List.nodup_cons]
    refine ⟨?_, nodup_eraseDups _⟩
    rw [List.mem_eraseDups, List.mem_filter]
    simp
termination_by items.length
decreasing_by simp only [List.length_cons]; omega

/-- Repetitions may be dropped from the second part first. -/
theorem eraseDups_append_eraseDups (items others : List Item) :
    (items ++ others.eraseDups).eraseDups = (items ++ others).eraseDups := by
  rw [List.eraseDups_append, List.eraseDups_append, List.removeAll, filter_eraseDups,
    eraseDups_eraseDups, List.removeAll]

end FirstOccurrences

/-! ### Merges of what may be absent -/

section Options

variable {Item : Type} {combine : Item → Item → Item} {first second third : Option Item}

/-- What holds of both sides, and of any two items combined, holds of their merge. -/
theorem forall_merge {Holds : Item → Prop} (hfirst : ∀ one, first = some one → Holds one)
    (hsecond : ∀ two, second = some two → Holds two)
    (hcombine : ∀ one two, Holds one → Holds two → Holds (combine one two)) (item : Item)
    (hmerge : Option.merge combine first second = some item) : Holds item := by
  cases first with
  | none =>
    rw [Option.merge_none_left] at hmerge
    exact hsecond item hmerge
  | some one =>
    cases second with
    | none =>
      rw [Option.merge_none_right] at hmerge
      exact hfirst item hmerge
    | some two =>
      rw [Option.merge_some_some, Option.some.injEq] at hmerge
      rw [← hmerge]
      exact hcombine one two (hfirst one rfl) (hsecond two rfl)

theorem option_merge_assoc
    (hassoc : ∀ one two three, second = some two → third = some three →
      combine (combine one two) three = combine one (combine two three)) :
    Option.merge combine (Option.merge combine first second) third =
      Option.merge combine first (Option.merge combine second third) := by
  cases third with
  | none => rw [Option.merge_none_right, Option.merge_none_right]
  | some three =>
    cases second with
    | none => rw [Option.merge_none_right, Option.merge_none_left]
    | some two =>
      cases first with
      | none => rw [Option.merge_none_left, Option.merge_none_left]
      | some one => simp only [Option.merge_some_some, hassoc one two three rfl rfl]

end Options

/-! ### Stores in which each item has its key -/

section Stores

variable {Key Item : Type} {keyOf : Item → Key}

/-- Items put into a store one by one, no two of them with the same key, are each merged with what
the store had under that key. -/
theorem lookup_foldl_put [DecidableEq Key] {State : Type} {lookup : State → Key → Option Item}
    {combine : Item → Item → Item} {put : State → Item → State}
    (hput : ∀ state item key, lookup (put state item) key =
      if keyOf item = key then Option.merge combine (lookup state key) (some item)
      else lookup state key)
    {items : List Item} (hdistinct : (items.map keyOf).Nodup) (state : State) (key : Key) :
    lookup (items.foldl put state) key =
      Option.merge combine (lookup state key) (items.find? (keyOf · = key)) := by
  induction items generalizing state with
  | nil => simp
  | cons item items ih =>
    rw [List.map_cons, List.nodup_cons] at hdistinct
    rw [List.foldl_cons, ih hdistinct.2, hput]
    by_cases hkey : keyOf item = key
    · have hnone : items.find? (keyOf · = key) = none := by
        rw [List.find?_eq_none]
        intro other hother heq
        refine hdistinct.1 (List.mem_map.2 ⟨other, hother, ?_⟩)
        rw [hkey]
        simpa using heq
      rw [hnone]
      simp [hkey]
    · simp [hkey]

variable [Ord Key] [Std.TransOrd Key] [Std.LawfulEqOrd Key] {map : Std.ExtTreeMap Key Item}

/-- A look-up finds the item that has the key looked up. -/
theorem mem_values (hkeyed : ∀ key item, map[key]? = some item → keyOf item = key) (item : Item) :
    item ∈ map.toList.map Prod.snd ↔ map[keyOf item]? = some item := by
  simp only [List.mem_map, Prod.exists, exists_eq_right,
    Std.ExtTreeMap.mem_toList_iff_getElem?_eq_some]
  constructor
  · rintro ⟨key, hitem⟩
    rw [hkeyed key item hitem]
    exact hitem
  · intro hitem
    exact ⟨_, hitem⟩

theorem nodup_keyOf_values (hkeyed : ∀ key item, map[key]? = some item → keyOf item = key) :
    ((map.toList.map Prod.snd).map keyOf).Nodup := by
  have hkeys : (map.toList.map Prod.snd).map keyOf = map.toList.map Prod.fst := by
    rw [List.map_map]
    refine List.map_congr_left fun entry hentry => ?_
    exact hkeyed entry.1 entry.2 (Std.ExtTreeMap.mem_toList_iff_getElem?_eq_some.1 hentry)
  rw [hkeys, Std.ExtTreeMap.map_fst_toList_eq_keys]
  exact Std.ExtTreeMap.nodup_keys

/-- The items of a store may be searched in any order. -/
theorem find?_values [DecidableEq Key]
    (hkeyed : ∀ key item, map[key]? = some item → keyOf item = key) {items : List Item}
    (hitems : items.Perm (map.toList.map Prod.snd)) (key : Key) :
    items.find? (keyOf · = key) = map[key]? := by
  cases hfind : items.find? (keyOf · = key) with
  | some item =>
    have hkey : keyOf item = key := by simpa using List.find?_some hfind
    have hmem := hitems.mem_iff.1 (List.mem_of_find?_eq_some hfind)
    rw [← hkey, (mem_values hkeyed item).1 hmem]
  | none =>
    cases hitem : map[key]? with
    | none => rfl
    | some item =>
      have hkey := hkeyed key item hitem
      have hmem := hitems.mem_iff.2 ((mem_values hkeyed item).2 (hkey ▸ hitem))
      simpa [hkey] using List.find?_eq_none.1 hfind item hmem

end Stores

namespace ActionList

/-- Adding actions one by one keeps the first occurrence of each. -/
theorem foldl_add_eraseDups (seen actions : List Action) :
    actions.foldl add seen.eraseDups = (seen ++ actions).eraseDups := by
  induction actions generalizing seen with
  | nil => simp
  | cons action actions ih =>
    have hadd : add seen.eraseDups action = (seen ++ [action]).eraseDups := by
      by_cases hmem : action ∈ seen
      · simp [add, List.eraseDups_append, List.removeAll, List.mem_eraseDups, hmem]
      · simp [add, List.eraseDups_append, List.removeAll, List.mem_eraseDups, hmem,
          List.eraseDups_cons]
    rw [List.foldl_cons, hadd, ih, List.append_assoc, List.singleton_append]

theorem actions_merge {list : ActionList} (hnodup : list.actions.Nodup) (other : ActionList) :
    (list.merge other).actions = (list.actions ++ other.actions).eraseDups := by
  rw [← foldl_add_eraseDups, eraseDups_of_nodup hnodup]
  rfl

end ActionList

namespace PeeringPoint

/-- Each slot holds a list of its own direction. -/
def Directed (point : PeeringPoint) : Prop :=
  ∀ direction list, point.actions direction = some list → list.direction = direction

theorem fill_eq_merge (slot : Option ActionList) (list : ActionList) :
    fill slot list = Option.merge ActionList.merge slot (some list) := by
  cases slot <;> rfl

@[ext] theorem ext_actions {a b : PeeringPoint} (hmultiprotocol : a.multiprotocol = b.multiprotocol)
    (haddresses : a.addresses = b.addresses)
    (hactions : ∀ direction, a.actions direction = b.actions direction) : a = b := by
  have himport : a.importActions = b.importActions := hactions .incoming
  have hexport : a.exportActions = b.exportActions := hactions .outgoing
  cases a
  cases b
  simp_all

@[simp] theorem actions_new (multiprotocol : Bool) (addresses : Option AddressPair)
    (direction : Direction) : (new multiprotocol addresses).actions direction = none := by
  cases direction <;> rfl

theorem actions_addActions (point : PeeringPoint) (list : ActionList) (direction : Direction) :
    (point.addActions list).actions direction =
      if list.direction = direction then
        Option.merge ActionList.merge (point.actions direction) (some list)
      else point.actions direction := by
  rw [← fill_eq_merge]
  cases direction <;> cases hdirection : list.direction <;> simp [addActions, actions, hdirection]

@[simp] theorem addresses_addActions? (point : PeeringPoint) (list : Option ActionList) :
    (point.addActions? list).addresses = point.addresses := by
  cases list with
  | none => rfl
  | some list => cases hdirection : list.direction <;> simp [addActions?, addActions, hdirection]

@[simp] theorem multiprotocol_addActions? (point : PeeringPoint) (list : Option ActionList) :
    (point.addActions? list).multiprotocol = point.multiprotocol := by
  cases list with
  | none => rfl
  | some list => cases hdirection : list.direction <;> simp [addActions?, addActions, hdirection]

theorem actions_addActions? (point : PeeringPoint) (list : Option ActionList)
    (direction : Direction) :
    (point.addActions? list).actions direction =
      Option.merge ActionList.merge (point.actions direction)
        (list.filter (·.direction = direction)) := by
  cases list with
  | none => simp [addActions?]
  | some list =>
    rw [addActions?, actions_addActions]
    by_cases hdirection : list.direction = direction <;> simp [Option.filter, hdirection]

@[simp] theorem addresses_merge (point other : PeeringPoint) :
    (point.merge other).addresses = point.addresses := by
  simp [merge]

@[simp] theorem multiprotocol_merge (point other : PeeringPoint) :
    (point.merge other).multiprotocol = (point.multiprotocol || other.multiprotocol) := by
  simp [merge]

/-- The slots of two points are merged one by one. -/
theorem actions_merge (point : PeeringPoint) {other : PeeringPoint} (hother : other.Directed)
    (direction : Direction) :
    (point.merge other).actions direction =
      Option.merge ActionList.merge (point.actions direction) (other.actions direction) := by
  have hkeep : ∀ slot, other.actions slot = (other.actions slot).filter (·.direction = slot) := by
    intro slot
    cases hlist : other.actions slot with
    | none => rfl
    | some list => simp [Option.filter, hother slot list hlist]
  have hdrop : ∀ {slot}, slot ≠ direction →
      (other.actions slot).filter (·.direction = direction) = none := by
    intro slot hslot
    cases hlist : other.actions slot with
    | none => rfl
    | some list => simp [Option.filter, hother slot list hlist, hslot]
  rw [merge, actions_addActions?, actions_addActions?]
  cases direction with
  | incoming =>
    rw [show other.exportActions = other.actions .outgoing from rfl, hdrop (by decide),
      show other.importActions = other.actions .incoming from rfl, ← hkeep,
      Option.merge_none_right]
    rfl
  | outgoing =>
    rw [show other.importActions = other.actions .incoming from rfl, hdrop (by decide),
      show other.exportActions = other.actions .outgoing from rfl, ← hkeep,
      Option.merge_none_right]
    rfl

end PeeringPoint

namespace Peer

/-- Each point is stored under its own addresses. -/
def Keyed (peer : Peer) : Prop :=
  ∀ addresses point, peer.point? addresses = some point → point.addresses = addresses

@[simp] theorem point?_new (identifier : Text) (addresses : Option AddressPair) :
    (new identifier).point? addresses = none := by
  simp [new, point?]

@[simp] theorem point?_addFilter (peer : Peer) (filter : FilterRef)
    (addresses : Option AddressPair) :
    (peer.addFilter filter).point? addresses = peer.point? addresses := rfl

theorem mem_filters_addFilter (peer : Peer) (filter ref : FilterRef) :
    ref ∈ (peer.addFilter filter).filters ↔ ref = filter ∨ ref ∈ peer.filters := by
  simp only [addFilter, Std.ExtTreeSet.mem_insert, Std.LawfulEqCmp.compare_eq_iff_eq]
  rw [eq_comm]

theorem point?_attach_eq_merge (peer : Peer) (point : PeeringPoint)
    (addresses : Option AddressPair) :
    (peer.attach point).point? addresses =
      if point.addresses = addresses then
        Option.merge PeeringPoint.merge (peer.point? addresses) (some point)
      else peer.point? addresses := by
  rw [point?_attach]
  cases peer.point? addresses <;> rfl

theorem nodup_addresses_pointList {peer : Peer} (hkeyed : peer.Keyed) :
    (peer.pointList.map PeeringPoint.addresses).Nodup :=
  nodup_keyOf_values hkeyed

/-- The point that a look-up finds is the one in the list with the addresses looked up. -/
theorem find?_pointList {peer : Peer} (hkeyed : peer.Keyed) (addresses : Option AddressPair) :
    peer.pointList.find? (·.addresses = addresses) = peer.point? addresses :=
  find?_values hkeyed (List.Perm.refl peer.pointList) addresses

theorem point?_foldl_attach (points : List PeeringPoint)
    (hdistinct : (points.map PeeringPoint.addresses).Nodup) (peer : Peer)
    (addresses : Option AddressPair) :
    (points.foldl attach peer).point? addresses =
      Option.merge PeeringPoint.merge (peer.point? addresses)
        (points.find? (·.addresses = addresses)) :=
  lookup_foldl_put point?_attach_eq_merge hdistinct peer addresses

/-- A fold leaves alone what its step leaves alone. -/
private theorem foldl_keeps {State Item Value : Type} (read : State → Value)
    (step : State → Item → State) (hstep : ∀ state item, read (step state item) = read state)
    (items : List Item) (state : State) : read (items.foldl step state) = read state := by
  induction items generalizing state with
  | nil => rfl
  | cons item items ih => rw [List.foldl_cons, ih, hstep]

@[simp] theorem identifier_foldl_attach (points : List PeeringPoint) (peer : Peer) :
    (points.foldl attach peer).identifier = peer.identifier :=
  foldl_keeps Peer.identifier attach (fun _ _ => rfl) points peer

@[simp] theorem filters_foldl_attach (points : List PeeringPoint) (peer : Peer) :
    (points.foldl attach peer).filters = peer.filters :=
  foldl_keeps Peer.filters attach (fun _ _ => rfl) points peer

@[simp] theorem identifier_foldl_addFilter (filters : List FilterRef) (peer : Peer) :
    (filters.foldl addFilter peer).identifier = peer.identifier :=
  foldl_keeps Peer.identifier addFilter (fun _ _ => rfl) filters peer

@[simp] theorem point?_foldl_addFilter (filters : List FilterRef) (peer : Peer)
    (addresses : Option AddressPair) :
    (filters.foldl addFilter peer).point? addresses = peer.point? addresses :=
  foldl_keeps (Peer.point? · addresses) addFilter (fun _ _ => rfl) filters peer

theorem mem_filters_foldl_addFilter (filters : List FilterRef) (peer : Peer) (ref : FilterRef) :
    ref ∈ (filters.foldl addFilter peer).filters ↔ ref ∈ peer.filters ∨ ref ∈ filters := by
  induction filters generalizing peer with
  | nil => simp
  | cons filter filters ih =>
    rw [List.foldl_cons, ih, mem_filters_addFilter, List.mem_cons]
    grind

@[simp] theorem identifier_merge (peer other : Peer) :
    (peer.merge other).identifier = peer.identifier := by
  simp [merge]

theorem mem_filters_merge (peer other : Peer) (ref : FilterRef) :
    ref ∈ (peer.merge other).filters ↔ ref ∈ peer.filters ∨ ref ∈ other.filters := by
  rw [merge, filters_foldl_attach, mem_filters_foldl_addFilter, filterList,
    Std.ExtTreeSet.mem_toList]

/-- The points of two peers are merged one by one. -/
theorem point?_merge (peer : Peer) {other : Peer} (hother : other.Keyed)
    (addresses : Option AddressPair) :
    (peer.merge other).point? addresses =
      Option.merge PeeringPoint.merge (peer.point? addresses) (other.point? addresses) := by
  rw [merge, point?_foldl_attach _ (nodup_addresses_pointList hother), point?_foldl_addFilter,
    find?_pointList hother]

end Peer

namespace Directory

theorem get?_insert_eq_merge (directory : Directory) (peer : Peer) (identifier : Text) :
    (directory.insert peer).get? identifier =
      if peer.identifier = identifier then
        Option.merge Peer.merge (directory.get? identifier) (some peer)
      else directory.get? identifier := by
  rw [get?_insert]
  cases directory.get? identifier <;> rfl

end Directory

end RoutingPolicy
