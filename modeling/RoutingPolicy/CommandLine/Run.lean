import RoutingPolicy.CommandLine.Options
import RoutingPolicy.Registry.Client
import RoutingPolicy.Report
import RoutingPolicy.Text.Decoding

/-!
# Runs of the command line

What a run prints and how it ends, given the arguments, the files and the transport to the registry.
-/

namespace RoutingPolicy

namespace CommandLine

/-- What a run can reach. -/
structure Surroundings where
  /-- The text of a file, or why it cannot be read. -/
  readFile : Text → Except Text Text
  transport : Transport

/-- How a run ends: its exit code and what it wrote. -/
structure Ending where
  code : UInt32
  output : Text
  errors : Text
deriving DecidableEq

namespace Ending

def success (output : Text) : Ending := ⟨0, output ++ ['\n'], []⟩

def failure (message : Text) : Ending := ⟨1, [], message ++ ['\n']⟩

end Ending

def versionText : Text := "rpsl-peering 0.1.0".toList

def usageText : Text := "Usage: rpsl-peering [OPTIONS] [FILE]".toList

/-- The system whose policy is wanted, in capital letters; empty if none is given. -/
def autnum (given : Given) : Text := Text.upper ((given.value? .autnum).getD [])

def client (given : Given) : Client :=
  (Client.new ((given.value? .url).getD Client.defaultBase)
    ((given.value? .source).getD "RIPE".toList)).withAlternatives (given.values .altSource)

/-- Which attributes are read; the two restrictions exclude each other. -/
def config? (given : Given) : Option Config :=
  if given.has .ipv4Only && given.has .ipv6Only then none
  else some ⟨!given.has .ipv6Only, !given.has .ipv4Only, given.has .defaults⟩

/-- The protocol that the name of a file asks for: what stands before the first `://`. -/
def protocol? (name : Text) : Option Text := (Text.splitAt? [':', '/', '/'] name).map Prod.fst

/-- The protocols, apart from none, under which a file can be had. -/
def protocols : List Text := ["http".toList, "https".toList]

/-- The text of a named file, or why it cannot be read. A name with a protocol that is not supported
is refused before anything is looked up. -/
def fileText (surroundings : Surroundings) (name : Text) : Except Text Text :=
  if (protocol? name).any (!protocols.contains ·) then .error ("Not supported: ".toList ++ name)
  else surroundings.readFile name

/-- The document with the policy: the file, or what the registry has. -/
def document (surroundings : Surroundings) (given : Given) : Except Text Text :=
  match given.file with
  | some name =>
    match fileText surroundings name with
    | .ok text => .ok text
    | .error reason =>
      .error ("unable to read ".toList ++ name ++ [':', ' '] ++ reason)
  | none =>
    let autnum := autnum given
    if autnum = [] then .error "Error: either FILE or --autnum is required".toList
    else match (client given).lookup surroundings.transport (.policy autnum) with
      | some bytes => .ok (Text.ofUtf8 bytes)
      | none => .error ("no policy received for ".toList ++ autnum)

/-- The document with the routes: the file, or what the registry has; none if it has nothing. -/
def routeDocument? (surroundings : Surroundings) (given : Given) (config : Config)
    (policy : Text) : Option Text :=
  match given.file with
  | some _ => some policy
  | none =>
    ((client given).lookup surroundings.transport (.routes (autnum given) config.ipv6)).map
      Text.ofUtf8

def routes (surroundings : Surroundings) (given : Given) (config : Config) (policy : Text) :
    List Route :=
  if given.has .routes then
    match (routeDocument? surroundings given config policy).bind Markup.Element.ofText? with
    | some root => Route.all root config.versions
    | none => []
  else []

def render (given : Given) (report : Report) : Text :=
  if given.has .json then
    if given.has .pretty then report.toJson.pretty else report.toJson.compact
  else report.toText

def malformed : Ending := ⟨1, [], "failed to load registry content in XML format: ".toList⟩

def analyse (surroundings : Surroundings) (given : Given) : Ending :=
  match config? given with
  | none => .failure "Error: --ipv4-only and --ipv6-only cannot be used together".toList
  | some config =>
    match document surroundings given with
    | .error message => .failure message
    | .ok text =>
      match (Session.new (autnum given) config).readPolicy text with
      | (none, _) => malformed
      | (some summary, session) =>
        .success (render given ⟨session, summary, routes surroundings given config text⟩)

def run (surroundings : Surroundings) (arguments : List Text) : Ending :=
  match readArguments arguments with
  | .error .misuse => ⟨2, [], usageText ++ ['\n']⟩
  | .error .version => .success versionText
  | .error .help => .success usageText
  | .ok given => analyse surroundings given

end CommandLine

end RoutingPolicy
