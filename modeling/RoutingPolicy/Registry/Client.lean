import RoutingPolicy.Log
import RoutingPolicy.Registry.Error
import RoutingPolicy.Registry.Query

/-!
# Registry clients

A client knows where to search and which sources to search. The transport that fetches a URL is
given to each request. Lookups treat every failure as missing data: they log it and give no result.
-/

namespace RoutingPolicy

/-- What fetching a URL gives: the bytes of the reply or a failure. -/
abbrev Reply := Except RegistryError (List UInt8)

/-- A way to fetch the document behind a URL. -/
abbrev Transport := Text → Reply

/-- A transport over which no request gets through. -/
def Transport.refusing (reason : Text) : Transport := fun _ => .error (.transport reason)

structure Client where
  base : Text
  sources : Sources
deriving DecidableEq

/-- The registry that is searched unless another one is named. -/
def Client.defaultBase : Text := "https://rest.db.ripe.net".toList

namespace Client

def new (base source : Text) : Client := ⟨base, ⟨source, []⟩⟩

def withAlternatives (client : Client) (more : List Text) : Client :=
  { client with sources.alternatives := client.sources.alternatives ++ more }

def url (client : Client) (query : Query) : Text := query.url client.base client.sources

def search (client : Client) (transport : Transport) (query : Query) : Reply :=
  transport (client.url query)

/-- The lookups that treat failures as missing data. -/
inductive Lookup where
  | policy (autnum : Text)
  /-- A set that filters refer to. -/
  | filterSet (name : Text)
  /-- The routes that a system originates, of version 6 as well if asked for. -/
  | routes (autnum : Text) (ipv6 : Bool)
deriving DecidableEq

def Lookup.query : Lookup → Query
  | policy autnum => { Query.byKey autnum with flags := ["r".toList] }
  | filterSet name => { Query.byKey name with flags := ["r".toList] }
  | routes autnum ipv6 =>
    { Query.byKey autnum with
      inverseAttribute := some "origin".toList
      typeFilters := "route".toList :: if ipv6 then ["route6".toList] else []
      flags := ["r".toList] }

/-- The log entries after the reply to a lookup. -/
def Lookup.outcomeEntries : Lookup → Reply → List LogEntry
  | policy autnum, .ok _ => [⟨.debug, "policy received for ".toList ++ autnum⟩]
  | policy autnum, .error cause =>
    [⟨.error, "failed to receive policy for ".toList ++ autnum ++ [':', ' '] ++ cause.message⟩]
  | filterSet name, .error cause =>
    [⟨.error, "get filter failed for ".toList ++ name ++ [':', ' '] ++ cause.message⟩]
  | routes autnum _, .error cause =>
    [⟨.error, "get all routes failed for ".toList ++ autnum ++ [':', ' '] ++ cause.message⟩]
  | _, .ok _ => []

def searchEntry (client : Client) (query : Query) : LogEntry :=
  ⟨.debug, "registry search: ".toList ++ client.url query⟩

def lookup (client : Client) (transport : Transport) (lookup : Lookup) : Option (List UInt8) :=
  (client.search transport lookup.query).toOption

def lookupEntries (client : Client) (transport : Transport) (lookup : Lookup) : List LogEntry :=
  client.searchEntry lookup.query ::
    lookup.outcomeEntries (client.search transport lookup.query)

end Client

end RoutingPolicy
