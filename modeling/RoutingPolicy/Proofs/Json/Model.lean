import RoutingPolicy.Json.Model
import RoutingPolicy.Proofs.Address.Notation
import RoutingPolicy.Proofs.Filter.Fingerprint
import RoutingPolicy.Proofs.Session.WellFormed

/-!
# The model is determined by its JSON

Level by level, different values are written as different JSON values. Points and peers are written
without the keys under which they are stored, so at these levels the result rests on what calls keep:
every point is stored under its own addresses, and every peer under its identifier.
-/

namespace RoutingPolicy

open Json

/-! ### Addresses -/

/-- The version of an address can be seen from its text. -/
theorem Address.isIpv6_iff_colon (address : Address) :
    address.isIpv6 = true ↔ ':' ∈ address.toText := by
  cases address with
  | v4 address =>
    have hcolon : ∀ c ∈ address.toText, c ≠ ':' :=
      address.forall_mem_toText (p := (· ≠ ':')) (by decide) (by decide)
    exact iff_of_false Bool.false_ne_true fun hmem => hcolon ':' hmem rfl
  | v6 address => exact iff_of_true rfl address.colon_mem_toText

theorem Address.toText_injective : Function.Injective toText := by
  intro one two htext
  have hversion : one.isIpv6 = two.isIpv6 := by
    rw [Bool.eq_iff_iff, isIpv6_iff_colon, htext, ← isIpv6_iff_colon]
  have hread := read?_toText .strict one
  rw [hversion, htext, read?_toText] at hread
  exact (Option.some.inj hread).symm

theorem AddressPair.toJson_injective : Function.Injective toJson := by
  rintro ⟨localOne, remoteOne⟩ ⟨localTwo, remoteTwo⟩ hjson
  simp only [toJson, Address.toJson, record, List.map_cons, List.map_nil, object.injEq,
    List.cons.injEq, Prod.mk.injEq, string.injEq, true_and, and_true] at hjson
  obtain ⟨hlocal, hremote⟩ := hjson
  rw [Address.toText_injective hlocal, Address.toText_injective hremote]

/-! ### Actions -/

theorem Operator.toJson_injective : Function.Injective toJson := by
  intro one two hjson
  cases one <;> cases two <;> simp [toJson] at hjson ⊢

theorem Direction.toJson_injective : Function.Injective toJson := by
  intro one two hjson
  cases one <;> cases two <;> simp [toJson, name] at hjson ⊢

theorem Action.toJson_injective : Function.Injective toJson := by
  rintro ⟨sequenceOne, nameOne, operatorOne, valueOne⟩
    ⟨sequenceTwo, nameTwo, operatorTwo, valueTwo⟩ hjson
  simp only [toJson, record, List.map_cons, List.map_nil, object.injEq, List.cons.injEq,
    Prod.mk.injEq, string.injEq, number.injEq, true_and, and_true] at hjson
  obtain ⟨rfl, hoperator, rfl, rfl⟩ := hjson
  rw [Operator.toJson_injective hoperator]

theorem ActionList.toJson_injective : Function.Injective toJson := by
  rintro ⟨directionOne, actionsOne⟩ ⟨directionTwo, actionsTwo⟩ hjson
  simp only [toJson, record, List.map_cons, List.map_nil, object.injEq, List.cons.injEq,
    Prod.mk.injEq, array.injEq, true_and, and_true] at hjson
  obtain ⟨hactions, hdirection⟩ := hjson
  rw [Direction.toJson_injective hdirection,
    List.map_injective_iff.2 Action.toJson_injective hactions]

/-! ### Points -/

/-- What may be absent is written as null, which nothing else may be. -/
theorem Json.optional_injective {Item : Type} {write : Item → Json} (hwrite : Function.Injective write)
    (hnull : ∀ item, write item ≠ null) :
    Function.Injective fun item? : Option Item => Json.optional (item?.map write) := by
  intro one two hjson
  cases one with
  | none =>
    cases two with
    | none => rfl
    | some item => exact absurd hjson.symm (hnull item)
  | some item =>
    cases two with
    | none => exact absurd hjson (hnull item)
    | some other => exact congrArg some (hwrite hjson)

theorem PeeringPoint.toJson_injective : Function.Injective toJson := by
  rintro ⟨multiOne, addressesOne, importOne, exportOne⟩
    ⟨multiTwo, addressesTwo, importTwo, exportTwo⟩ hjson
  simp only [toJson, record, List.map_cons, List.map_nil, object.injEq, List.cons.injEq,
    Prod.mk.injEq, bool.injEq, true_and, and_true] at hjson
  obtain ⟨haddresses, hexport, himport, rfl⟩ := hjson
  have hactions : Function.Injective fun list? : Option ActionList =>
      Json.optional (list?.map ActionList.toJson) :=
    optional_injective ActionList.toJson_injective fun _ => Json.noConfusion
  rw [optional_injective AddressPair.toJson_injective (fun _ => Json.noConfusion) haddresses,
    hactions hexport, hactions himport]

/-! ### Peers -/

theorem FilterRef.toJson_injective : Function.Injective toJson := by
  rintro ⟨fingerprintOne, multiOne⟩ ⟨fingerprintTwo, multiTwo⟩ hjson
  simp only [toJson, Fingerprint.toJson, record, List.map_cons, List.map_nil, object.injEq,
    List.cons.injEq, Prod.mk.injEq, string.injEq, bool.injEq, true_and, and_true] at hjson
  obtain ⟨hfingerprint, rfl⟩ := hjson
  rw [Fingerprint.toText_injective hfingerprint]

/-- The list of points has the keys in it. -/
theorem Peer.eq_of_toJson_eq {one two : Peer} (hone : one.Keyed) (htwo : two.Keyed)
    (hjson : one.toJson = two.toJson) : one = two := by
  simp only [toJson, record, List.map_cons, List.map_nil, object.injEq, List.cons.injEq,
    Prod.mk.injEq, array.injEq, string.injEq, true_and, and_true] at hjson
  obtain ⟨hfilters, hidentifier, hpoints⟩ := hjson
  have hfilterList := List.map_injective_iff.2 FilterRef.toJson_injective hfilters
  have hpointList := List.map_injective_iff.2 PeeringPoint.toJson_injective hpoints
  refine Peer.ext hidentifier (fun addresses => ?_) fun filter => ?_
  · rw [← find?_pointList hone, ← find?_pointList htwo, hpointList]
  · rw [← Std.ExtTreeSet.mem_toList, ← Std.ExtTreeSet.mem_toList]
    exact iff_of_eq (congrArg (filter ∈ ·) hfilterList)

/-! ### Directories and catalogs -/

/-- Lists agree if their images do and no two of their items have the same image. -/
theorem eq_of_map_eq {Item Value : Type} {write : Item → Value} {items others : List Item}
    (hwrite : ∀ item ∈ items, ∀ other ∈ others, write item = write other → item = other)
    (hmap : items.map write = others.map write) : items = others := by
  induction items generalizing others with
  | nil => exact (List.map_eq_nil_iff.1 hmap.symm).symm
  | cons item items ih =>
    cases others with
    | nil => exact absurd hmap (List.cons_ne_nil _ _)
    | cons other others =>
      obtain ⟨hhead, htail⟩ := List.cons_eq_cons.1 hmap
      rw [hwrite item List.mem_cons_self other List.mem_cons_self hhead, ih _ htail]
      exact fun a ha b hb => hwrite a (List.mem_cons_of_mem _ ha) b (List.mem_cons_of_mem _ hb)

theorem Directory.eq_of_toJson_eq {one two : Directory} (hone : one.WellFormed)
    (htwo : two.WellFormed) (hjson : one.toJson = two.toJson) : one = two := by
  have hkeyed {directory : Directory} (hdirectory : directory.WellFormed) :
      ∀ entry ∈ directory.toList, entry.2.Keyed := by
    intro entry hentry
    have hpeer : directory.get? entry.1 = some entry.2 :=
      Std.ExtTreeMap.mem_toList_iff_getElem?_eq_some.1 hentry
    exact (hdirectory entry.1 entry.2 hpeer).2.keyed
  have hentries : one.toList = two.toList := by
    refine eq_of_map_eq (fun entry hentry other hother hwritten => ?_) (object.inj hjson)
    obtain ⟨hidentifier, hpeer⟩ := Prod.mk.inj hwritten
    exact Prod.ext hidentifier
      (Peer.eq_of_toJson_eq (hkeyed hone entry hentry) (hkeyed htwo other hother) hpeer)
  cases one
  cases two
  exact congrArg _ (Std.ExtTreeMap.toList_inj.1 hentries)

theorem Catalog.toJson_injective : Function.Injective toJson := by
  intro one two hjson
  have hentries : one.toList = two.toList := by
    refine eq_of_map_eq (fun entry _ other _ hwritten => ?_) (object.inj hjson)
    obtain ⟨hfingerprint, hfilter⟩ := Prod.mk.inj hwritten
    exact Prod.ext (Fingerprint.toText_injective hfingerprint) (string.inj hfilter)
  cases one
  cases two
  exact congrArg _ (Std.ExtTreeMap.toList_inj.1 hentries)

/-- Sessions that any calls lead to have the same directory exactly if it is written as the same JSON
value, and the same holds of their catalogs. -/
theorem Session.toJson_eq_iff_performAll (autnum other : Text) (config wider : Config)
    (calls others : List Call) :
    let one := (new autnum config).performAll calls
    let two := (new other wider).performAll others
    (one.directory.toJson = two.directory.toJson ↔ one.directory = two.directory) ∧
      (one.catalog.toJson = two.catalog.toJson ↔ one.catalog = two.catalog) := by
  refine ⟨⟨fun hjson => ?_, congrArg _⟩, Catalog.toJson_injective.eq_iff⟩
  exact Directory.eq_of_toJson_eq
    (wellFormed_directory_performAll (wellFormed_new autnum config) calls)
    (wellFormed_directory_performAll (wellFormed_new other wider) others) hjson

end RoutingPolicy
