import Mathlib.Algebra.Ring.Nat
import RoutingPolicy.Proofs.Filter.Fingerprint
import RoutingPolicy.Proofs.Session.WellFormed
import RoutingPolicy.Proofs.Text.Line
import RoutingPolicy.Report

/-!
# The lines of a report

A report has one line for each item: the summary, the peers, their filters, their points, the actions of
the points, and the routes. Most of what is printed is made of words and numbers. The texts of filters
and the origins of routes are printed as they are, and a line end in one of them ends the line in which
it is printed.
-/

namespace RoutingPolicy

open Text

/-! ### Items -/

def PeeringPoint.slotCount (point : PeeringPoint) : Nat :=
  point.importActions.toList.length + point.exportActions.toList.length

/-- A peer with its filters, its points and their actions. -/
def Peer.itemCount (peer : Peer) : Nat :=
  1 + peer.filterList.length + (peer.pointList.map fun point => 1 + point.slotCount).sum

/-- The text that is printed for a filter. -/
def Catalog.shown (catalog : Catalog) (filter : FilterRef) : Text :=
  (catalog.get? filter.fingerprint).getD []

namespace Report

def itemCount (report : Report) : Nat :=
  1 + (report.session.directory.toList.map fun (_, peer) => peer.itemCount).sum +
    report.routes.length

/-- What is printed as it was found: the filters of the peers and the origins of the routes. -/
def freeTexts (report : Report) : List Text :=
  report.session.directory.toList.flatMap
      (fun (_, peer) => peer.filterList.map report.session.catalog.shown) ++
    report.routes.map Route.origin

theorem length_pointLines (point : PeeringPoint) :
    (pointLines point).length = 1 + point.slotCount := by
  obtain ⟨multiprotocol, addresses, importActions, exportActions⟩ := point
  cases importActions <;> cases exportActions <;> rfl

theorem length_peerLines (catalog : Catalog) (peer : Peer) :
    (peerLines catalog peer).length = peer.itemCount := by
  rw [peerLines, List.cons_append, List.length_cons, List.length_append, List.length_map,
    List.length_flatMap, Peer.itemCount]
  simp only [length_pointLines]
  omega

theorem length_lines (report : Report) : report.lines.length = report.itemCount := by
  rw [lines, List.cons_append, List.length_cons, List.length_append, List.length_map,
    List.length_flatMap, itemCount]
  simp only [length_peerLines]
  omega

end Report

/-! ### Texts without line ends -/

theorem Text.lineEnd_not_mem_decimal (n : Nat) : '\n' ∉ decimal n := fun hmem =>
  forall_mem_toDigits (p := (· ≠ '\n')) (by decide : 1 < 10) (by decide) (by decide) hmem rfl

theorem Fingerprint.lineEnd_not_mem_toText (fingerprint : Fingerprint) : '\n' ∉ fingerprint.toText :=
  fun hmem => forall_mem_hexPadded (p := (· ≠ '\n')) (by decide) 16 _ _ hmem rfl

theorem PlainWord.lineEnd_not_mem {word : Text} (hword : PlainWord word) : '\n' ∉ word :=
  hword.isWord.not_mem (by decide)

theorem AddressPair.lineEnd_not_mem_toText (pair : AddressPair) : '\n' ∉ pair.toText := by
  simp [toText, pair.localRouter.plainWord_toText.lineEnd_not_mem,
    pair.remoteRouter.plainWord_toText.lineEnd_not_mem]

theorem Network.lineEnd_not_mem_toText (network : Network) : '\n' ∉ network.toText := by
  simp [toText, network.address.plainWord_toText.lineEnd_not_mem, lineEnd_not_mem_decimal]

theorem Action.Unbroken.lineEnd_not_mem_toText {action : Action} (haction : action.Unbroken) :
    '\n' ∉ action.toText := by
  have hblank : ¬isWordChar '\n' = true := by decide
  have hoperator : '\n' ∉ action.operator.toText := by cases action.operator <;> decide
  intro hmem
  rw [toText, List.mem_append, List.mem_append] at hmem
  rcases hmem with (hname | hmem) | hvalue
  · exact hblank (haction _ (List.mem_append_left _ hname))
  · exact hoperator hmem
  · exact hblank (haction _ (List.mem_append_right _ hvalue))

namespace Report

theorem lineEnd_not_mem_actionLine {list : ActionList} {direction : Direction}
    (hlist : list.WellFormed direction) (printed : Direction) : '\n' ∉ actionLine list printed := by
  have hname : '\n' ∉ printed.name := by cases printed <;> decide
  have hactions : '\n' ∉ "; ".toList.intercalate (list.actions.map Action.toText) := by
    refine not_mem_intercalate (by decide) fun text htext => ?_
    obtain ⟨action, haction, rfl⟩ := List.mem_map.1 htext
    exact (hlist.unbroken action haction).lineEnd_not_mem_toText
  unfold actionLine
  simp only [List.mem_append, not_or]
  exact ⟨⟨⟨by decide, hname⟩, by decide⟩, hactions⟩

theorem lineEnd_not_mem_pointLines {point : PeeringPoint} (hpoint : point.WellFormed) :
    ∀ line ∈ pointLines point, '\n' ∉ line := by
  intro line hline
  rcases List.mem_cons.1 hline with rfl | hline
  · cases point.addresses with
    | none => decide
    | some pair => simp [pair.lineEnd_not_mem_toText]
  · obtain ⟨direction, -, hline⟩ := List.mem_filterMap.1 hline
    obtain ⟨list, hlist, rfl⟩ := Option.map_eq_some_iff.1 hline
    exact lineEnd_not_mem_actionLine (hpoint.actions direction list hlist) direction

theorem lineEnds_filterLine (catalog : Catalog) (filter : FilterRef) :
    lineEnds (filterLine catalog filter) = lineEnds (catalog.shown filter) := by
  have hfront : '\n' ∉ "  filter ".toList ++ filter.fingerprint.toText ++ [' '] := by
    simp only [List.mem_append, not_or]
    exact ⟨⟨by decide, filter.fingerprint.lineEnd_not_mem_toText⟩, by decide⟩
  unfold filterLine Catalog.shown
  rw [lineEnds_append, lineEnds_eq_zero_iff.2 hfront, Nat.zero_add]

theorem lineEnds_peerLines (catalog : Catalog) {peer : Peer} (hpeer : peer.WellFormed) :
    lineEnds (peerLines catalog peer).flatten =
      lineEnds (peer.filterList.map catalog.shown).flatten := by
  have hidentifier : lineEnds peer.identifier = 0 :=
    lineEnds_eq_zero_iff.2 hpeer.identifier.lineEnd_not_mem
  have hpoints : lineEnds (peer.pointList.flatMap pointLines).flatten = 0 := by
    rw [lineEnds_eq_zero_iff]
    intro hmem
    obtain ⟨line, hline, hmem⟩ := List.mem_flatten.1 hmem
    obtain ⟨point, hpoint, hline⟩ := List.mem_flatMap.1 hline
    obtain ⟨⟨addresses, point⟩, hentry, rfl⟩ := List.mem_map.1 hpoint
    have hfound : peer.point? addresses = some point :=
      Std.ExtTreeMap.mem_toList_iff_getElem?_eq_some.1 hentry
    exact lineEnd_not_mem_pointLines (hpeer.point addresses point hfound).2 line hline hmem
  rw [peerLines, List.cons_append, List.flatten_cons, List.flatten_append, lineEnds_append,
    lineEnds_append, hidentifier, hpoints, Nat.zero_add, Nat.add_zero]
  exact lineEnds_map_congr fun filter _ => lineEnds_filterLine catalog filter

theorem lineEnds_routeLine (route : Route) : lineEnds (routeLine route) = lineEnds route.origin := by
  have hfront : '\n' ∉ "route ".toList ++ (route.network.toText ++ " origin ".toList) := by
    simp only [List.mem_append, not_or]
    exact ⟨by decide, route.network.lineEnd_not_mem_toText, by decide⟩
  unfold routeLine Route.toText
  rw [← List.append_assoc, lineEnds_append, lineEnds_eq_zero_iff.2 hfront, Nat.zero_add]

theorem lineEnd_not_mem_summaryLine {report : Report} (hautnum : '\n' ∉ report.session.autnum) :
    '\n' ∉ report.summaryLine := by
  simp [summaryLine, hautnum, lineEnd_not_mem_decimal]

/-- Only filters and origins have line ends in them. -/
theorem lineEnds_lines {report : Report} (hautnum : '\n' ∉ report.session.autnum)
    (hdirectory : report.session.directory.WellFormed) :
    lineEnds report.lines.flatten = lineEnds report.freeTexts.flatten := by
  have hsummary := lineEnds_eq_zero_iff.2 (lineEnd_not_mem_summaryLine hautnum)
  have hpeers : ∀ entry ∈ report.session.directory.toList,
      lineEnds (peerLines report.session.catalog entry.2).flatten =
        lineEnds (entry.2.filterList.map report.session.catalog.shown).flatten := by
    intro entry hentry
    have hfound : report.session.directory.get? entry.1 = some entry.2 :=
      Std.ExtTreeMap.mem_toList_iff_getElem?_eq_some.1 hentry
    exact lineEnds_peerLines _ (hdirectory entry.1 entry.2 hfound).2
  have hroutes : ∀ route ∈ report.routes, lineEnds (routeLine route) = lineEnds route.origin :=
    fun route _ => lineEnds_routeLine route
  rw [lines, List.cons_append, List.flatten_cons, List.flatten_append, lineEnds_append,
    lineEnds_append, hsummary, Nat.zero_add, freeTexts, List.flatten_append, lineEnds_append,
    lineEnds_flatMap_congr hpeers, lineEnds_map_congr hroutes]

/-- The lines that are printed are the items and those that the free texts add. -/
theorem lineEnds_toText {report : Report} (hautnum : '\n' ∉ report.session.autnum)
    (hdirectory : report.session.directory.WellFormed) :
    lineEnds (report.toText ++ ['\n']) = report.itemCount + lineEnds report.freeTexts.flatten := by
  have hend : lineEnds ['\n'] = 1 := by decide
  have hne : report.lines ≠ [] := by simp [lines]
  rw [lineEnds_append, hend, toText, lineEnds_intercalate hne, length_lines,
    lineEnds_lines hautnum hdirectory]

/-- What a report says about a session with one contribution. -/
theorem lines_of_single (autnum : Text) (config : Config) (summary : Summary)
    {contribution : Contribution} {filter : Text} (hfilter : contribution.filter = some filter) :
    let report : Report := ⟨(Session.new autnum config).add contribution, summary, []⟩
    report.freeTexts = [filter] ∧ report.lines = report.summaryLine :: contribution.subject ::
      ("  filter ".toList ++ (Fingerprint.ofText filter).toText ++ [' '] ++ filter) ::
        pointLines contribution.point := by
  obtain ⟨subject, _, multiprotocol, point⟩ := contribution
  cases hfilter
  intro report
  let peer := (Contribution.mk subject (some filter) multiprotocol point).peer
  have hpeers : report.session.directory.toList = [(subject, peer)] := rfl
  have hfilters : peer.filterList = [⟨Fingerprint.ofText filter, multiprotocol⟩] := rfl
  have hpoints : peer.pointList = [point] := rfl
  have hidentifier : peer.identifier = subject := rfl
  have hroutes : report.routes = [] := rfl
  have hfound : report.session.catalog.get? (Fingerprint.ofText filter) = some filter := by
    show (Catalog.empty.insert filter).get? _ = _
    rw [Catalog.get?_insert, Catalog.get?_empty, if_pos ⟨rfl, rfl⟩]
  constructor
  · simp only [freeTexts, hpeers, hfilters, hroutes, Catalog.shown, hfound, List.flatMap_singleton,
      List.map_singleton, List.map_nil, List.append_nil, Option.getD_some]
  · simp only [lines, peerLines, hpeers, hfilters, hpoints, hidentifier, hroutes, List.append_nil,
      List.flatMap_singleton, List.map_singleton, List.map_nil, List.cons_append, List.nil_append]
    unfold filterLine
    rw [hfound, Option.getD_some]

end Report

end RoutingPolicy
