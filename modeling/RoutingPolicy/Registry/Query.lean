import RoutingPolicy.Text.Percent

/-!
# Registry searches

A search names an object, the sources to look in and the kinds of objects wanted. It is sent as a
URL whose parameters are percent-encoded.
-/

namespace RoutingPolicy

/-- The registries that are searched together. -/
structure Sources where
  primary : Text
  alternatives : List Text
deriving DecidableEq

/-- All sources, the primary one first. -/
def Sources.toList (sources : Sources) : List Text := sources.primary :: sources.alternatives

structure Query where
  key : Text
  /-- The attribute in which the name stands, if objects are searched by another attribute than
  their own name. -/
  inverseAttribute : Option Text
  /-- The object types wanted; all if none is given. -/
  typeFilters : List Text
  flags : List Text
deriving DecidableEq

namespace Query

def byKey (key : Text) : Query := ⟨key, none, [], []⟩

def parameters (query : Query) (sources : Sources) : List (Text × Text) :=
  [("query-string".toList, query.key)] ++
    sources.toList.map ("source".toList, ·) ++
    query.inverseAttribute.toList.map ("inverse-attribute".toList, ·) ++
    query.typeFilters.map ("type-filter".toList, ·) ++
    query.flags.map ("flags".toList, ·)

def parameterText (parameter : Text × Text) : Text :=
  parameter.1 ++ ['='] ++ Text.percentEncode parameter.2

def parametersText (parameters : List (Text × Text)) : Text :=
  ['&'].intercalate (parameters.map parameterText)

/-- A text without the slashes at its end. -/
def dropSlashes (text : Text) : Text := (text.reverse.dropWhile (· == '/')).reverse

def url (query : Query) (base : Text) (sources : Sources) : Text :=
  dropSlashes base ++ "/search.xml?".toList ++ parametersText (query.parameters sources)

end Query

end RoutingPolicy
