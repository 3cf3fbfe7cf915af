import RoutingPolicy.Rule.Family

/-!
# How a rule is interpreted

The direction of a rule, whether it is multiprotocol and whether it is a default rule depend on the
attribute that it stands in, and so do the IP versions that it is read for.
-/

namespace RoutingPolicy

/-- The direction of a rule, seen from the system that owns the policy. -/
inductive Direction where
  | incoming
  | outgoing
deriving DecidableEq

namespace Direction

def name : Direction → Text
  | incoming => "import".toList
  | outgoing => "export".toList

end Direction

/-- How a single rule is interpreted. -/
structure Context where
  direction : Direction
  multiprotocol : Bool
  /-- Default rules need no filter, and their actions end at `NETWORKS`. -/
  isDefault : Bool
  /-- The IP versions asked for; rules of another family are skipped. -/
  requested : IpVersions
deriving DecidableEq

namespace Context

/-- A rule without further marks is read for IPv4, a multiprotocol one for both versions. -/
private def plain (direction : Direction) (multiprotocol isDefault : Bool) : Context where
  direction := direction
  multiprotocol := multiprotocol
  isDefault := isDefault
  requested := if multiprotocol then .both else .only .ipv4

def importing (multiprotocol : Bool) : Context := plain .incoming multiprotocol false

def exporting (multiprotocol : Bool) : Context := plain .outgoing multiprotocol false

def default (multiprotocol : Bool) : Context := plain .incoming multiprotocol true

def requesting (context : Context) (requested : IpVersions) : Context :=
  { context with requested }

/-- The keyword at which the actions of a rule end. -/
def actionBoundary (context : Context) : Keyword :=
  match context.isDefault, context.direction with
  | true, _ => .networks
  | false, .incoming => .accept
  | false, .outgoing => .announce

end Context

/-- Which attributes of a policy are read. -/
structure Config where
  /-- Read `import` and `export`. -/
  ipv4 : Bool
  /-- Read `mp-import` and `mp-export`. -/
  ipv6 : Bool
  /-- Read `default` and `mp-default` as well. -/
  defaults : Bool
deriving DecidableEq

namespace Config

/-- Everything but the default rules. -/
def standard : Config := ⟨true, true, false⟩

def versions (config : Config) : IpVersions := ⟨config.ipv4, config.ipv6⟩

/-- How the attribute of a name is read, if it is. Multiprotocol rules are read when IPv6 is enabled
and are kept for every enabled version. -/
def contextFor? (config : Config) (name : Text) : Option Context :=
  let plain (context : Context) := if config.ipv4 then some context else none
  let multi (context : Context) :=
    if config.ipv6 then some (context.requesting config.versions) else none
  if name = "import".toList then plain (.importing false)
  else if name = "export".toList then plain (.exporting false)
  else if name = "default".toList then if config.defaults then plain (.default false) else none
  else if name = "mp-import".toList then multi (.importing true)
  else if name = "mp-export".toList then multi (.exporting true)
  else if name = "mp-default".toList then if config.defaults then multi (.default true) else none
  else none

end Config

end RoutingPolicy
