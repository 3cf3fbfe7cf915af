import RoutingPolicy.CommandLine.Run
import RoutingPolicy.Proofs.Report.Lines
import RoutingPolicy.Proofs.Session.Containers
import RoutingPolicy.Proofs.Session.Filters

/-!
# The lines that a run prints

What a run on a well-formed document prints is its report as text. The filters in it come from the values
of the policy, so as long as there is no line end in these and in the origins of routes, each item of the
report is printed on a line of its own.
-/

namespace RoutingPolicy

open Text
open Markup (Element)

/-- A policy of which one rule is read, and is accepted. -/
theorem Session.readTree_of_single {autnum : Text} {config : Config} {root : Element}
    {request : Request} {contribution : Contribution}
    (hrequests : (Export.policyAttributes root).filterMap (Request.ofAttribute? config) = [request])
    (hcontribution : request.contribution? = some contribution) :
    (new autnum config).readTree root = (⟨1, 0, 0⟩, (new autnum config).add contribution) := by
  have houtcome : request.outcome = .ok (.accepted contribution.subject) := by
    obtain ⟨other, hother, -, houtcome⟩ | ⟨_, hnone, -⟩ | ⟨_, hnone, -⟩ := request.outcome_cases
    · rw [hcontribution, Option.some.injEq] at hother
      rw [houtcome, hother]
    all_goals
      rw [hcontribution] at hnone
      exact absurd hnone (Option.some_ne_none _)
  rw [readTree, readAttributes_eq]
  simp only [new, hrequests, run_eq, List.map_cons, List.map_nil, List.filterMap_cons, hcontribution,
    List.filterMap_nil, houtcome]
  rfl

namespace CommandLine

/-- What is reported about the policy in a document. -/
def reportOf (surroundings : Surroundings) (given : Given) (config : Config) (text : Text)
    (root : Element) : Report :=
  let (summary, session) := (Session.new (autnum given) config).readTree root
  ⟨session, summary, routes surroundings given config text⟩

section Document

variable {surroundings : Surroundings} {arguments : List Text} {given : Given} {config : Config}
  {text : Text} {root : Element}

theorem run_of_document (harguments : readArguments arguments = .ok given)
    (hjson : given.has .json = false) (hconfig : config? given = some config)
    (hdocument : document surroundings given = .ok text) (hroot : Element.ofText? text = some root) :
    run surroundings arguments =
      .success (reportOf surroundings given config text root).toText := by
  rw [run, harguments]
  show analyse surroundings given = _
  rw [analyse, hconfig, hdocument]
  simp only [Session.readPolicy_of_root _ hroot, render, hjson, Bool.false_eq_true, if_false]
  rfl

theorem session_reportOf (surroundings : Surroundings) (given : Given) (config : Config)
    (hroot : Element.ofText? text = some root) :
    (reportOf surroundings given config text root).session =
      (Session.new (autnum given) config).performAll [.readPolicy text] := by
  show _ = ((Session.new (autnum given) config).readPolicy text).2
  rw [Session.readPolicy_of_root _ hroot]
  rfl

theorem lineEnds_reportOf (surroundings : Surroundings) (config : Config)
    (hroot : Element.ofText? text = some root) (hautnum : '\n' ∉ (given.value? .autnum).getD []) :
    let report := reportOf surroundings given config text root
    lineEnds (report.toText ++ ['\n']) =
      report.itemCount + lineEnds report.freeTexts.flatten := by
  intro report
  have hsession := session_reportOf surroundings given config hroot
  refine Report.lineEnds_toText ?_ ?_
  · rw [hsession, Session.autnum_performAll]
    exact lineEnd_not_mem_upper hautnum
  · rw [hsession]
    exact Session.wellFormed_directory_performAll (Session.wellFormed_new _ _) _

/-- A free text is a filter of the catalog, which comes from the values of the policy, or an origin. -/
theorem lineEnd_not_mem_freeTexts (hvalues : ∀ item ∈ Export.policyAttributes root, '\n' ∉ item.value)
    (horigins : ∀ route ∈ routes surroundings given config text, '\n' ∉ route.origin) :
    ∀ free ∈ (reportOf surroundings given config text root).freeTexts, '\n' ∉ free := by
  intro free hfree hmem
  rcases List.mem_append.1 hfree with hfree | hfree
  · obtain ⟨entry, -, hfree⟩ := List.mem_flatMap.1 hfree
    obtain ⟨filter, -, rfl⟩ := List.mem_map.1 hfree
    rw [Catalog.shown] at hmem
    cases hfound : (reportOf surroundings given config text root).session.catalog.get?
        filter.fingerprint with
    | none =>
      rw [hfound] at hmem
      exact List.not_mem_nil hmem
    | some found =>
      rw [hfound] at hmem
      obtain ⟨item, hitem, hvalue⟩ := Session.exists_value_of_catalog hfound hmem
      exact hvalues item hitem hvalue
  · obtain ⟨route, hroute, rfl⟩ := List.mem_map.1 hfree
    exact horigins route hroute hmem

/-- A run on a well-formed document prints a line for each item of its report, and one more for each line
end in a filter or an origin. So the lines are the items exactly if none of these texts has a line end in
it, and this is so if there is none in the origins and in the values of the policy. -/
theorem lineEnds_run (harguments : readArguments arguments = .ok given)
    (hjson : given.has .json = false) (hconfig : config? given = some config)
    (hdocument : document surroundings given = .ok text) (hroot : Element.ofText? text = some root)
    (hautnum : '\n' ∉ (given.value? .autnum).getD []) :
    let report := reportOf surroundings given config text root
    let printed := (run surroundings arguments).output
    run surroundings arguments = .success report.toText ∧
      lineEnds printed = report.itemCount + lineEnds report.freeTexts.flatten ∧
      (lineEnds printed = report.itemCount ↔ ∀ free ∈ report.freeTexts, '\n' ∉ free) ∧
      ((∀ item ∈ Export.policyAttributes root, '\n' ∉ item.value) →
        (∀ route ∈ report.routes, '\n' ∉ route.origin) → lineEnds printed = report.itemCount) := by
  intro report printed
  have hrun := run_of_document harguments hjson hconfig hdocument hroot
  have hprinted : printed = report.toText ++ ['\n'] := congrArg Ending.output hrun
  have hcount : lineEnds printed = report.itemCount + lineEnds report.freeTexts.flatten := by
    rw [hprinted, lineEnds_reportOf surroundings config hroot hautnum]
  have hiff : lineEnds printed = report.itemCount ↔ ∀ free ∈ report.freeTexts, '\n' ∉ free := by
    rw [hcount, Nat.add_eq_left, lineEnds_eq_zero_iff, List.mem_flatten]
    exact ⟨fun hnone free hfree hmem => hnone ⟨free, hfree, hmem⟩,
      fun hfree ⟨free, hmem, hline⟩ => hfree free hmem hline⟩
  exact ⟨hrun, hcount, hiff, fun hvalues horigins =>
    hiff.2 (lineEnd_not_mem_freeTexts hvalues horigins)⟩

end Document

set_option maxRecDepth 100000 in
/-- One rule with a filter on one line. -/
theorem lineEnds_run_one_filter :
    let text := "<objects><object type=\"aut-num\"><attributes><attribute name=\"import\"".toList ++
      " value=\"from AS1 accept AS-A\"/></attributes></object></objects>".toList
    let surroundings : Surroundings := ⟨fun _ => .ok text, .refusing []⟩
    let arguments := ["-aAS64500".toList, "policy.xml".toList]
    ∃ given config root, readArguments arguments = .ok given ∧ given.has .json = false ∧
      config? given = some config ∧ document surroundings given = .ok text ∧
      Element.ofText? text = some root ∧ '\n' ∉ (given.value? .autnum).getD [] ∧
      let report := reportOf surroundings given config text root
      run surroundings arguments = .success report.toText ∧
        lineEnds (run surroundings arguments).output = report.itemCount := by
  intro text surroundings arguments
  let given : Given := ⟨some "policy.xml".toList, [], [(.autnum, "AS64500".toList)]⟩
  let root : Element := .mk "objects".toList []
    [.mk "object".toList [⟨none, "type".toList, "aut-num".toList⟩]
      [.mk "attributes".toList [] [.mk "attribute".toList [⟨none, "name".toList, "import".toList⟩,
        ⟨none, "value".toList, "from AS1 accept AS-A".toList⟩] []]]]
  have harguments : readArguments arguments = .ok given := rfl
  have hjson : given.has .json = false := rfl
  have hconfig : config? given = some .standard := rfl
  have hdocument : document surroundings given = .ok text := rfl
  have hroot : Element.ofText? text = some root := by with_unfolding_all rfl
  have hautnum : '\n' ∉ (given.value? .autnum).getD [] := by decide
  have hvalues : ∀ item ∈ Export.policyAttributes root, '\n' ∉ item.value := by decide +kernel
  obtain ⟨hrun, -, -, hcount⟩ := lineEnds_run harguments hjson hconfig hdocument hroot hautnum
  exact ⟨given, .standard, root, harguments, hjson, hconfig, hdocument, hroot, hautnum, hrun,
    hcount hvalues (List.forall_mem_nil _)⟩

set_option maxRecDepth 100000 in
/-- A reference to a line end in a filter makes a line that reads like that of a peer. -/
theorem lineEnds_run_forged_peer :
    let text := "<objects><object type=\"aut-num\"><attributes><attribute name=\"import\"".toList ++
      " value=\"from AS1 accept AS-A&#10;AS9\"/></attributes></object></objects>".toList
    let surroundings : Surroundings := ⟨fun _ => .ok text, .refusing []⟩
    let arguments := ["policy.xml".toList]
    let printed := (run surroundings arguments).output
    ∃ given config root, readArguments arguments = .ok given ∧ given.has .json = false ∧
      config? given = some config ∧ document surroundings given = .ok text ∧
      Element.ofText? text = some root ∧ '\n' ∉ (given.value? .autnum).getD [] ∧
      let report := reportOf surroundings given config text root
      report.itemCount = 4 ∧ lineEnds printed = 5 ∧
        (∃ before after, printed = before ++ "\nAS9\n".toList ++ after) ∧
        report.session.directory.contains "AS9".toList = false := by
  intro text surroundings arguments printed
  let given : Given := ⟨some "policy.xml".toList, [], []⟩
  let root : Element := .mk "objects".toList []
    [.mk "object".toList [⟨none, "type".toList, "aut-num".toList⟩]
      [.mk "attributes".toList [] [.mk "attribute".toList [⟨none, "name".toList, "import".toList⟩,
        ⟨none, "value".toList, "from AS1 accept AS-A\nAS9".toList⟩] []]]]
  let request : Request := ⟨"FROM AS1 ACCEPT AS-A\nAS9".toList, .importing false⟩
  let filter := "AS-A\nAS9".toList
  let contribution : Contribution := ⟨"AS1".toList, some filter, false, .new false none⟩
  let report : Report := ⟨(Session.new [] .standard).add contribution, ⟨1, 0, 0⟩, []⟩
  have harguments : readArguments arguments = .ok given := rfl
  have hjson : given.has .json = false := rfl
  have hconfig : config? given = some .standard := rfl
  have hdocument : document surroundings given = .ok text := rfl
  have hroot : Element.ofText? text = some root := by with_unfolding_all rfl
  have hautnum : '\n' ∉ (given.value? .autnum).getD [] := by decide
  have hrequests : (Export.policyAttributes root).filterMap (Request.ofAttribute? .standard) =
      [request] := by decide +kernel
  have hcontribution : request.contribution? = some contribution := by decide +kernel
  have hreport : reportOf surroundings given .standard text root = report := by
    unfold reportOf
    rw [show autnum given = [] from rfl, Session.readTree_of_single hrequests hcontribution]
    rfl
  have hrun : run surroundings arguments = .success report.toText := by
    rw [run_of_document harguments hjson hconfig hdocument hroot, hreport]
  have hprinted : printed = report.toText ++ ['\n'] := congrArg Ending.output hrun
  have hfilter : contribution.filter = some filter := rfl
  have hfree : report.freeTexts = [filter] := (Report.lines_of_single _ _ _ hfilter).1
  have hlines : report.lines = [report.summaryLine, "AS1".toList,
      "  filter ".toList ++ (Fingerprint.ofText filter).toText ++ [' '] ++ "AS-A\nAS9".toList,
      "  peering -".toList] := (Report.lines_of_single _ _ _ hfilter).2
  have hitems : report.itemCount = 4 := by
    rw [← Report.length_lines, hlines]
    rfl
  have hcount : lineEnds printed = 5 := by
    have hreported := lineEnds_reportOf surroundings .standard hroot hautnum
    simp only [hreport, hfree, hitems] at hreported
    rw [hprinted, hreported]
    decide
  have hforged : ∃ before after, printed = before ++ "\nAS9\n".toList ++ after := by
    rw [hprinted, Report.toText, hlines]
    generalize report.summaryLine = first
    generalize (Fingerprint.ofText filter).toText = digits
    refine ⟨first ++ "\nAS1\n  filter ".toList ++ digits ++ " AS-A".toList,
      "  peering -\n".toList, ?_⟩
    simp [List.intercalate_cons_cons]
  refine ⟨given, .standard, root, harguments, hjson, hconfig, hdocument, hroot, hautnum, ?_⟩
  rw [hreport]
  exact ⟨hitems, hcount, hforged, rfl⟩

end CommandLine

end RoutingPolicy
