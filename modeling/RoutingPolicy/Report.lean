import RoutingPolicy.Json.Model
import RoutingPolicy.Session.Basic

/-!
# Reports

What has been learned from a policy, as lines of text or as one JSON value.
-/

namespace RoutingPolicy

/-- What is reported about a policy. -/
structure Report where
  session : Session
  summary : Summary
  routes : List Route

namespace Report

/-- The first line: how many rules were read with what outcome. -/
def summaryLine (report : Report) : Text :=
  report.session.autnum ++ ": ".toList ++ Text.decimal report.summary.accepted ++
    " rules accepted, ".toList ++ Text.decimal report.summary.mismatched ++
    " skipped for address family, ".toList ++ Text.decimal report.summary.failed ++
    " failed".toList

def filterLine (catalog : Catalog) (filter : FilterRef) : Text :=
  "  filter ".toList ++ filter.fingerprint.toText ++ [' '] ++
    (catalog.get? filter.fingerprint).getD []

def actionLine (list : ActionList) (direction : Direction) : Text :=
  "    ".toList ++ direction.name ++ " action ".toList ++
    "; ".toList.intercalate (list.actions.map Action.toText)

def pointLines (point : PeeringPoint) : List Text :=
  ("  peering ".toList ++ (point.addresses.map AddressPair.toText).getD ['-']) ::
    [Direction.incoming, Direction.outgoing].filterMap fun direction =>
      (point.actions direction).map (actionLine · direction)

def peerLines (catalog : Catalog) (peer : Peer) : List Text :=
  peer.identifier :: peer.filterList.map (filterLine catalog) ++ peer.pointList.flatMap pointLines

def routeLine (route : Route) : Text := "route ".toList ++ route.toText

def lines (report : Report) : List Text :=
  report.summaryLine ::
    report.session.directory.toList.flatMap
      (fun (_, peer) => peerLines report.session.catalog peer) ++
    report.routes.map routeLine

def toText (report : Report) : Text := ['\n'].intercalate report.lines

def toJson (report : Report) : Json :=
  .record
    [("autnum", .string report.session.autnum),
     ("filters", report.session.catalog.toJson),
     ("peers", report.session.directory.toJson),
     ("routes", .array (report.routes.map Route.toJson)),
     ("summary", report.summary.toJson)]

end Report

end RoutingPolicy
