import RoutingPolicy.Address.Notation
import RoutingPolicy.Proofs.Rule.Token
import RoutingPolicy.Proofs.Text.Numeral
import RoutingPolicy.Proofs.Text.Split

/-!
# Written addresses are read back

Every address is read from its written form, also by the strict reader. An IPv4 address is read
piece by piece. For an IPv6 address there are three cases: with an IPv4 address inside, with a gap
for its longest run of zero groups, and with all eight groups.
-/

namespace RoutingPolicy

open Text

namespace Ipv4

variable (form : AddressSyntax)

/-- An octet has at most three digits and begins with a zero only if it is zero. -/
private theorem shape_decimal : ∀ n < 256, (decimal n).length ≤ 3 ∧
    ((decimal n).length = 1 ∨ (decimal n).head? ≠ some '0') := by
  decide +kernel

theorem octet?_decimal (octet : UInt8) : octet? form (decimal octet.toNat) = some octet := by
  obtain ⟨hlength, hzero⟩ := shape_decimal octet.toNat octet.toNat_lt
  have hshape : (decide ((decimal octet.toNat).length ≤ 3) && (form.leadingZeros ||
      (decimal octet.toNat).length == 1 || (decimal octet.toNat).head? != some '0')) = true := by
    rcases hzero with hzero | hzero <;> simp [hlength, hzero]
  rw [octet?, if_pos hshape, decimal, number?_toDigits (by decide) (by decide), Option.filter_some,
    if_pos (by simpa using octet.toNat_lt), Option.map_some, UInt8.ofNat_toNat]

theorem point_not_mem_decimal (n : Nat) : '.' ∉ decimal n := fun hmem =>
  forall_mem_toDigits (by decide) (by decide) (p := (· ≠ '.')) (by decide) hmem rfl

theorem read?_toText (address : Ipv4) : read? form address.toText = some address := by
  have hpieces : ∀ piece ∈ address.octets.map fun octet => decimal octet.toNat,
      '.' ∉ piece := by
    intro piece hpiece
    obtain ⟨octet, -, rfl⟩ := List.mem_map.1 hpiece
    exact point_not_mem_decimal octet.toNat
  have hsplit : splitOn '.' address.toText =
      [decimal address.a.toNat, decimal address.b.toNat, decimal address.c.toNat,
        decimal address.d.toNat] :=
    splitOn_intercalate hpieces (List.cons_ne_nil _ _)
  simp only [read?, hsplit, octet?_decimal]
  rfl

theorem forall_mem_toText {p : Char → Prop} (hpoint : p '.')
    (hdigit : ∀ d < 16, p (Nat.digitChar d)) (address : Ipv4) : ∀ c ∈ address.toText, p c := by
  refine forall_mem_intercalate (List.forall_mem_singleton.2 hpoint) ?_
  intro piece hpiece c hc
  obtain ⟨octet, -, rfl⟩ := List.mem_map.1 hpiece
  exact forall_mem_toDigits (by decide) (by decide) hdigit hc

theorem point_mem_toText (address : Ipv4) : '.' ∈ address.toText := by
  simp [toText, octets, List.intercalate_cons_cons]

end Ipv4

namespace Ipv6

variable (form : AddressSyntax) (endsInIpv4 : Bool)

private theorem digit_ne_colon {n : Nat} {c : Char} (hc : c ∈ Nat.toDigits 16 n) : c ≠ ':' :=
  forall_mem_toDigits (by decide) (by decide) (p := (· ≠ ':')) (by decide) hc

theorem group?_toDigits (group : UInt16) :
    group? (Nat.toDigits 16 group.toNat) = some group := by
  have hlength : (Nat.toDigits 16 group.toNat).length ≤ 4 :=
    (Nat.length_toDigits_le_iff (by decide) (by decide)).2 group.toNat_lt
  rw [group?, if_pos hlength, number?_toDigits (by decide) (by decide), Option.map_some,
    UInt16.ofNat_toNat]

theorem groups?_toDigits (groups : List UInt16) :
    groups? form endsInIpv4 (groups.map fun group => Nat.toDigits 16 group.toNat) =
      some groups := by
  induction groups with
  | nil => rfl
  | cons group groups ih =>
    cases groups with
    | nil => simp only [List.map_cons, List.map_nil, groups?, group?_toDigits]
    | cons next groups =>
      rw [List.map_cons] at ih
      simp only [List.map_cons, groups?, group?_toDigits, ih]
      rfl

theorem splitOn_written {groups : List UInt16} (hne : groups ≠ []) :
    splitOn ':' (written groups) = groups.map fun group => Nat.toDigits 16 group.toNat := by
  refine splitOn_intercalate ?_ (by simpa using hne)
  intro piece hpiece hmem
  obtain ⟨group, -, rfl⟩ := List.mem_map.1 hpiece
  exact digit_ne_colon hmem rfl

/-- A colon between written groups has a digit behind it. -/
theorem colon_written {groups : List UInt16} {before after : Text}
    (heq : written groups = before ++ ':' :: after) :
    after ≠ [] ∧ after.head? ≠ some ':' := by
  have hne : groups ≠ [] := by
    rintro rfl
    simp [written] at heq
  have hpieces : [] ∉ splitOn ':' (written groups) := by
    rw [splitOn_written hne, List.mem_map]
    rintro ⟨group, -, hnil⟩
    exact Nat.toDigits_ne_nil hnil
  rw [heq, splitOn_eq_list_splitOn, List.splitOn_append_cons_self, List.mem_append,
    not_or] at hpieces
  constructor
  · rintro rfl
    exact hpieces.2 (by simp)
  · intro hhead
    obtain ⟨rest, rfl⟩ := List.head?_eq_some_iff.1 hhead
    refine hpieces.2 ?_
    rw [← List.nil_append (':' :: rest), List.splitOn_append_cons_self]
    exact List.mem_append_left _ (by simp)

theorem splitAt?_written (groups : List UInt16) : splitAt? [':', ':'] (written groups) = none := by
  refine splitAt?_eq_none ?_
  rintro ⟨before, after, heq⟩
  rw [List.append_assoc] at heq
  exact (colon_written heq.symm).2 rfl

theorem splitAt?_written_append (groups : List UInt16) (after : Text) :
    splitAt? [':', ':'] (written groups ++ ([':', ':'] ++ after)) =
      some (written groups, after) := by
  refine splitAt?_append after ?_
  rintro start hne ⟨before, heq⟩ hbegins
  obtain ⟨c, rest, rfl⟩ := List.exists_cons_of_ne_nil hne
  rw [List.cons_append, List.cons_prefix_cons] at hbegins
  obtain ⟨rfl, hbegins⟩ := hbegins
  obtain ⟨hrest, hhead⟩ := colon_written heq.symm
  obtain ⟨d, rest, rfl⟩ := List.exists_cons_of_ne_nil hrest
  rw [List.cons_append, List.cons_prefix_cons] at hbegins
  exact hhead (congrArg some hbegins.1.symm)

theorem run?_written (groups : List UInt16) :
    run? form endsInIpv4 (written groups) = some groups := by
  cases groups with
  | nil => rfl
  | cons group groups =>
    have hne : written (group :: groups) ≠ [] := by
      intro hnil
      have hsplit := splitOn_written (List.cons_ne_nil group groups)
      rw [hnil, splitOn, List.map_cons, List.cons.injEq] at hsplit
      exact Nat.toDigits_ne_nil hsplit.1.symm
    rw [run?, if_neg hne, splitOn_written (List.cons_ne_nil group groups), groups?_toDigits]

/-! ### An address with an IPv4 address inside -/

private theorem halves (word : UInt16) :
    (word / 256).toUInt8.toUInt16 * 256 + (word % 256).toUInt8.toUInt16 = word := by
  have hword := word.toNat_lt
  rw [← UInt16.toNat_inj]
  simp only [UInt16.toNat_add, UInt16.toNat_mul, UInt8.toNat_toUInt16, UInt16.toNat_toUInt8,
    UInt16.toNat_div, UInt16.toNat_mod, UInt16.reduceToNat]
  omega

theorem groups_of_mapped? {address : Ipv6} {inner : Ipv4} (hmapped : address.mapped? = some inner) :
    address.groups = [0, 0, 0, 0, 0, 0xFFFF] ++ groupsOfIpv4 inner := by
  unfold mapped? at hmapped
  split at hmapped
  next high low heq =>
    rw [heq, ← Option.some.inj hmapped, groupsOfIpv4]
    simp only [halves, List.cons_append, List.nil_append]
  next => exact absurd hmapped (by simp)

private theorem toDigits_mapped : Nat.toDigits 16 (0xFFFF : UInt16).toNat = "ffff".toList := by
  decide

theorem run?_mapped (inner : Ipv4) :
    run? form true ("ffff:".toList ++ inner.toText) = some (0xFFFF :: groupsOfIpv4 inner) := by
  have hcolon : ∀ c ∈ inner.toText, c ≠ ':' :=
    inner.forall_mem_toText (p := (· ≠ ':')) (by decide) (by decide)
  have hsplit : splitOn ':' ("ffff:".toList ++ inner.toText) = ["ffff".toList, inner.toText] := by
    rw [splitOn_eq_list_splitOn, ← List.splitOn_eq_singleton fun hmem => hcolon ':' hmem rfl]
    exact List.splitOn_append_cons_self_of_not_mem (by decide : ':' ∉ "ffff".toList) inner.toText
  have hgroup : group? inner.toText = none := by
    rw [group?, number?_eq_none inner.point_mem_toText (by decide), Option.map_none, ite_self]
  have hhead : group? "ffff".toList = some 0xFFFF := by
    rw [← toDigits_mapped, group?_toDigits]
  rw [run?, if_neg (by simp), hsplit]
  simp only [groups?, hhead, hgroup, Ipv4.read?_toText]
  rfl

/-! ### An address with a gap -/

theorem longestZeros_spec (groups : List UInt16) :
    groups = groups.take (longestZeros groups).1 ++ (List.replicate (longestZeros groups).2 0 ++
      groups.drop ((longestZeros groups).1 + (longestZeros groups).2)) := by
  induction groups with
  | nil => rfl
  | cons group groups ih =>
    rcases hrun : longestZeros groups with ⟨start, length⟩
    rw [hrun] at ih
    by_cases hlonger : ((group :: groups).takeWhile (· == 0)).length < length
    · simp only [longestZeros, hrun, if_pos hlonger]
      rw [Nat.add_right_comm, List.take_succ_cons, List.drop_succ_cons, List.cons_append, ← ih]
    · simp only [longestZeros, hrun, if_neg hlonger]
      have hzeros : List.replicate ((group :: groups).takeWhile (· == 0)).length 0 =
          (group :: groups).takeWhile (· == 0) := by
        rw [eq_comm, List.eq_replicate_iff]
        exact ⟨rfl, fun word hword => by simpa using List.mem_takeWhile_imp hword⟩
      have htake : (group :: groups).take ((group :: groups).takeWhile (· == 0)).length =
          (group :: groups).takeWhile (· == 0) :=
        (List.prefix_iff_eq_take.1 (List.takeWhile_prefix _)).symm
      rw [List.take_zero, List.nil_append, Nat.zero_add, hzeros]
      conv_lhs => rw [← List.take_append_drop ((group :: groups).takeWhile (· == 0)).length
        (group :: groups), htake]

theorem ofGroups?_groups (address : Ipv6) : ofGroups? address.groups = some address := by
  rw [ofGroups?, dif_pos address.length_groups]

theorem ofGap?_eq (address : Ipv6) {before after : List UInt16} {length : Nat}
    (heq : address.groups = before ++ (List.replicate length 0 ++ after)) (hlength : 0 < length) :
    ofGap? form before after = some address := by
  have hsum : before.length + (length + after.length) = 8 := by
    rw [← address.length_groups, heq, List.length_append, List.length_append, List.length_replicate]
  have hmissing : 8 - (before.length + after.length) = length := by omega
  have hshort : before.length < 8 := by omega
  have hgap : (length != 0) = true := by simpa using Nat.ne_of_gt hlength
  simp only [ofGap?, hmissing, hshort, hgap, decide_true, Bool.or_true, Bool.and_self, if_true]
  rw [List.append_assoc, ← heq, ofGroups?_groups]

/-! ### The three shapes -/

theorem toText_cases (address : Ipv6) :
    (∃ inner, address.groups = [] ++ (List.replicate 5 0 ++ 0xFFFF :: groupsOfIpv4 inner) ∧
      address.toText = "::ffff:".toList ++ inner.toText) ∨
    (∃ before after length, address.groups = before ++ (List.replicate length 0 ++ after) ∧
      0 < length ∧ address.toText = written before ++ ([':', ':'] ++ written after)) ∨
    address.toText = written address.groups := by
  rw [toText]
  cases hmapped : address.mapped? with
  | some inner => exact .inl ⟨inner, groups_of_mapped? hmapped, rfl⟩
  | none =>
    have hspec := longestZeros_spec address.groups
    rcases hrun : longestZeros address.groups with ⟨start, length⟩
    rw [hrun] at hspec
    by_cases hlength : 2 ≤ length
    · refine .inr (.inl ⟨_, _, length, hspec, by omega, ?_⟩)
      simp only [if_pos hlength, List.append_assoc]
    · exact .inr (.inr (if_neg hlength))

theorem read?_toText (address : Ipv6) : read? form address.toText = some address := by
  obtain ⟨inner, hgroups, htext⟩ | ⟨before, after, length, hgroups, hlength, htext⟩ | htext :=
    address.toText_cases
  · have hsplit : splitAt? [':', ':'] ("::ffff:".toList ++ inner.toText) =
        some (written [], "ffff:".toList ++ inner.toText) :=
      splitAt?_written_append [] _
    simp only [read?, htext, hsplit, run?_written, run?_mapped]
    exact ofGap?_eq form address hgroups (by decide)
  · simp only [read?, htext, splitAt?_written_append, run?_written]
    exact ofGap?_eq form address hgroups hlength
  · simp only [read?, htext, splitAt?_written, run?_written]
    exact ofGroups?_groups address

theorem forall_mem_written {p : Char → Prop} (hcolon : p ':')
    (hdigit : ∀ d < 16, p (Nat.digitChar d)) (groups : List UInt16) :
    ∀ c ∈ written groups, p c := by
  refine forall_mem_intercalate (List.forall_mem_singleton.2 hcolon) ?_
  intro piece hpiece c hc
  obtain ⟨group, -, rfl⟩ := List.mem_map.1 hpiece
  exact forall_mem_toDigits (by decide) (by decide) hdigit hc

theorem forall_mem_toText {p : Char → Prop} (hpoint : p '.') (hcolon : p ':')
    (hdigit : ∀ d < 16, p (Nat.digitChar d)) (address : Ipv6) : ∀ c ∈ address.toText, p c := by
  have hwritten := forall_mem_written hcolon hdigit
  have hbegins : ∀ c ∈ "::ffff:".toList, p c := by
    have hlast : p 'f' := hdigit 15 (by decide)
    simp [hcolon, hlast]
  obtain ⟨inner, -, htext⟩ | ⟨before, after, length, -, -, htext⟩ | htext := address.toText_cases
  · rw [htext]
    exact List.forall_mem_append.2 ⟨hbegins, inner.forall_mem_toText hpoint hdigit⟩
  · rw [htext]
    refine List.forall_mem_append.2 ⟨hwritten before, ?_⟩
    exact List.forall_mem_append.2 ⟨by simpa using hcolon, hwritten after⟩
  · rw [htext]
    exact hwritten address.groups

/-- At least two colons stand in every written address. -/
theorem colon_mem_toText (address : Ipv6) : ':' ∈ address.toText := by
  obtain ⟨inner, -, htext⟩ | ⟨before, after, length, -, -, htext⟩ | htext := address.toText_cases
  · rw [htext]
    exact List.mem_append_left _ (by simp)
  · rw [htext]
    exact List.mem_append_right _ (List.mem_append_left _ List.mem_cons_self)
  · have hlength := address.length_groups
    obtain ⟨first, groups, hgroups⟩ : ∃ first rest, address.groups = first :: rest :=
      List.exists_cons_of_length_pos (by omega)
    rw [hgroups, List.length_cons] at hlength
    obtain ⟨second, groups, rfl⟩ : ∃ second rest, groups = second :: rest :=
      List.exists_cons_of_length_pos (by omega)
    rw [htext, hgroups, written, List.map_cons, List.map_cons, List.intercalate_cons_cons]
    exact List.mem_append_left _ (List.mem_append_right _ List.mem_cons_self)

end Ipv6

namespace Address

theorem read?_toText (form : AddressSyntax) (address : Address) :
    read? form address.isIpv6 address.toText = some address := by
  cases address with
  | v4 address =>
    rw [toText, isIpv6, read?, if_neg Bool.false_ne_true, Ipv4.read?_toText, Option.map_some]
  | v6 address => rw [toText, isIpv6, read?, if_pos rfl, Ipv6.read?_toText, Option.map_some]

/-- The separators keep a written address from being a keyword. -/
theorem plainWord_toText (address : Address) : PlainWord address.toText := by
  cases address with
  | v4 address =>
    refine ⟨⟨List.ne_nil_of_mem address.point_mem_toText, address.forall_mem_toText
      (p := (isWordChar · = true)) (by decide) (by decide)⟩, ?_⟩
    refine Keyword.ofWord?_eq_none address.point_mem_toText ?_
    intro keyword
    cases keyword <;> decide
  | v6 address =>
    refine ⟨⟨List.ne_nil_of_mem address.colon_mem_toText, address.forall_mem_toText
      (p := (isWordChar · = true)) (by decide) (by decide) (by decide)⟩, ?_⟩
    refine Keyword.ofWord?_eq_none address.colon_mem_toText ?_
    intro keyword
    cases keyword <;> decide

end Address

end RoutingPolicy
