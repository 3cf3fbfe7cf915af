import Mathlib.Data.List.TakeWhile
import RoutingPolicy.Proofs.Text.Split
import RoutingPolicy.Registry.Query

/-!
# Search URLs are read back

The query part of a search URL is divided at each `&`, every piece of it at its first `=`, and the
value behind that is decoded. This gives the parameters of the search back, whatever characters their
values have, since an encoded value has neither of the two marks. So the URL tells which search it
stands for.
-/

namespace RoutingPolicy

namespace Text

/-- The text of which these bytes are the UTF-8 form, if there is one. -/
def ofUtf8? (bytes : List UInt8) : Option Text := bytes.toByteArray.utf8Decode?.map Array.toList

theorem ofUtf8?_utf8 (text : Text) : ofUtf8? (utf8 text) = some text := by
  have hbytes : (utf8 text).toByteArray = List.utf8Encode text := rfl
  rw [ofUtf8?, hbytes, List.utf8Decode?_utf8Encode, Option.map_some]

def percentDecode? (text : Text) : Option Text := (percentBytes? text).bind ofUtf8?

theorem percentDecode?_percentEncode (text : Text) :
    percentDecode? (percentEncode text) = some text := by
  rw [percentDecode?, percentBytes?_percentEncode, Option.bind_some, ofUtf8?_utf8]

/-- Whether a character can occur in an encoded value. -/
def isEncodedChar (c : Char) : Bool :=
  c.isAlphanum || c == '-' || c == '_' || c == '.' || c == '~' || c == '%'

theorem isEncodedChar_hexCapital {n : Nat} (hn : n < 16) : isEncodedChar (hexCapital n) = true := by
  revert n
  decide

theorem isEncodedChar_of_mem_percentByte {b : UInt8} {c : Char} (hc : c ∈ percentByte b) :
    isEncodedChar c = true := by
  have hb := b.toNat_lt
  unfold percentByte at hc
  split at hc
  next hunreserved =>
    rw [List.mem_singleton.1 hc, isEncodedChar, Bool.or_eq_true]
    exact .inl hunreserved
  next =>
    simp only [List.mem_cons, List.not_mem_nil, or_false] at hc
    rcases hc with rfl | rfl | rfl
    · rfl
    · exact isEncodedChar_hexCapital (by omega)
    · exact isEncodedChar_hexCapital (by omega)

theorem isEncodedChar_of_mem_percentEncode {text : Text} {c : Char} (hc : c ∈ percentEncode text) :
    isEncodedChar c = true := by
  obtain ⟨b, -, hb⟩ := List.mem_flatMap.1 hc
  exact isEncodedChar_of_mem_percentByte hb

theorem not_mem_percentEncode {c : Char} (hc : isEncodedChar c = false) (text : Text) :
    c ∉ percentEncode text := by
  intro hmem
  rw [isEncodedChar_of_mem_percentEncode hmem] at hc
  exact Bool.false_ne_true hc.symm

/-- A text is divided at the first occurrence of a character. -/
theorem splitAt?_singleton {c : Char} {before : Text} (hbefore : c ∉ before) (after : Text) :
    splitAt? [c] (before ++ ([c] ++ after)) = some (before, after) := by
  apply splitAt?_append
  intro start hne hstart hbegins
  obtain ⟨d, rest, rfl⟩ := List.exists_cons_of_ne_nil hne
  rw [List.cons_append, List.cons_prefix_cons] at hbegins
  exact hbefore (hstart.subset (hbegins.1 ▸ List.mem_cons_self))

/-! ### Slashes at the end -/

theorem dropSlashes_spec (text : Text) :
    (∃ n, text = Query.dropSlashes text ++ List.replicate n '/') ∧
      (Query.dropSlashes text).getLast? ≠ some '/' := by
  constructor
  · have hslashes : ∀ c ∈ (text.reverse.takeWhile (· == '/')).reverse, c = '/' := by
      intro c hc
      have hslash := List.mem_takeWhile_imp (List.mem_reverse.1 hc)
      exact beq_iff_eq.1 hslash
    refine ⟨(text.reverse.takeWhile (· == '/')).reverse.length, ?_⟩
    rw [← List.eq_replicate_of_mem hslashes, Query.dropSlashes, ← List.reverse_append,
      List.takeWhile_append_dropWhile, List.reverse_reverse]
  · rw [Query.dropSlashes, List.getLast?_reverse]
    intro hhead
    have hnot := List.head?_dropWhile_not (· == '/') text.reverse
    rw [hhead] at hnot
    exact absurd hnot (by decide)

end Text

namespace Query

open Text

/-! ### Reading a query part -/

/-- Reads one parameter: its name, and its value decoded. -/
def parameter? (piece : Text) : Option (Text × Text) := do
  let (name, encoded) ← splitAt? ['='] piece
  let value ← percentDecode? encoded
  return (name, value)

def parameters? (part : Text) : Option (List (Text × Text)) := (splitOn '&' part).mapM parameter?

/-- Whether a character can occur in a query part. -/
def isQueryChar (c : Char) : Bool := isEncodedChar c || c == '=' || c == '&'

/-- The names of parameters consist of letters and hyphens. -/
def isNameChar (c : Char) : Bool := c.isAlpha || c == '-'

theorem isNameChar_parameters {query : Query} {sources : Sources} {parameter : Text × Text}
    (hmem : parameter ∈ query.parameters sources) : ∀ c ∈ parameter.1, isNameChar c = true := by
  simp only [parameters, List.mem_append, List.mem_singleton, List.mem_map] at hmem
  rcases hmem with (((rfl | ⟨value, -, rfl⟩) | ⟨value, -, rfl⟩) | ⟨value, -, rfl⟩) | ⟨value, -, rfl⟩
  all_goals exact List.all_eq_true.1 rfl

theorem isQueryChar_of_isNameChar {c : Char} (hc : isNameChar c = true) : isQueryChar c = true := by
  simp only [isNameChar, Bool.or_eq_true] at hc
  rcases hc with hletter | hhyphen
  · simp [isQueryChar, isEncodedChar, Char.isAlphanum, hletter]
  · simp [isQueryChar, isEncodedChar, hhyphen]

theorem not_mem_of_isNameChar {name : Text} (hname : ∀ c ∈ name, isNameChar c = true) {c : Char}
    (hc : isNameChar c = false) : c ∉ name := by
  intro hmem
  rw [hname c hmem] at hc
  exact Bool.false_ne_true hc.symm

section Parameters

variable {parameter : Text × Text} {parameters : List (Text × Text)}

theorem parameter?_parameterText (hname : ∀ c ∈ parameter.1, isNameChar c = true) :
    parameter? (parameterText parameter) = some parameter := by
  have hequals : '=' ∉ parameter.1 := not_mem_of_isNameChar hname (by decide)
  rw [parameter?, parameterText, List.append_assoc, splitAt?_singleton hequals]
  simp only [Option.bind_eq_bind, Option.bind_some, percentDecode?_percentEncode]
  rfl

theorem isQueryChar_parameterText (hname : ∀ c ∈ parameter.1, isNameChar c = true) :
    ∀ c ∈ parameterText parameter, isQueryChar c = true ∧ c ≠ '&' := by
  intro c hc
  simp only [parameterText, List.mem_append, List.mem_singleton] at hc
  rcases hc with (hc | rfl) | hc
  · have hampersand : '&' ∉ parameter.1 := not_mem_of_isNameChar hname (by decide)
    exact ⟨isQueryChar_of_isNameChar (hname c hc), ne_of_mem_of_not_mem hc hampersand⟩
  · decide
  · have hampersand : '&' ∉ percentEncode parameter.2 := not_mem_percentEncode (by decide) _
    refine ⟨?_, ne_of_mem_of_not_mem hc hampersand⟩
    rw [isQueryChar, isEncodedChar_of_mem_percentEncode hc]
    rfl

theorem parameters?_parametersText (hne : parameters ≠ [])
    (hnames : ∀ parameter ∈ parameters, ∀ c ∈ parameter.1, isNameChar c = true) :
    parameters? (parametersText parameters) = some parameters := by
  have hpieces : ∀ piece ∈ parameters.map parameterText, '&' ∉ piece := by
    intro piece hpiece hmem
    obtain ⟨parameter, hparameter, rfl⟩ := List.mem_map.1 hpiece
    exact (isQueryChar_parameterText (hnames parameter hparameter) '&' hmem).2 rfl
  rw [parameters?, parametersText, splitOn_intercalate hpieces (by simpa using hne)]
  clear hne hpieces
  induction parameters with
  | nil => rfl
  | cons parameter parameters ih =>
    rw [List.map_cons, List.mapM_cons, parameter?_parameterText (hnames _ List.mem_cons_self),
      ih fun other hother => hnames other (List.mem_cons_of_mem parameter hother)]
    rfl

theorem isQueryChar_parametersText
    (hnames : ∀ parameter ∈ parameters, ∀ c ∈ parameter.1, isNameChar c = true) :
    ∀ c ∈ parametersText parameters, isQueryChar c = true := by
  refine forall_mem_intercalate (List.forall_mem_singleton.2 (by decide)) ?_
  intro piece hpiece c hc
  obtain ⟨parameter, hparameter, rfl⟩ := List.mem_map.1 hpiece
  exact (isQueryChar_parameterText (hnames parameter hparameter) c hc).1

end Parameters

/-! ### The search behind the parameters -/

/-- The values of a parameter that may occur several times. -/
def valuesOf (name : Text) (parameters : List (Text × Text)) : List Text :=
  (parameters.filter (·.1 == name)).map Prod.snd

theorem valuesOf_append (name : Text) (first second : List (Text × Text)) :
    valuesOf name (first ++ second) = valuesOf name first ++ valuesOf name second := by
  rw [valuesOf, List.filter_append, List.map_append, valuesOf, valuesOf]

theorem valuesOf_map (name other : Text) (values : List Text) :
    valuesOf name (values.map (other, ·)) = if other = name then values else [] := by
  induction values with
  | nil => simp [valuesOf]
  | cons value values ih =>
    rw [List.map_cons, ← List.singleton_append, valuesOf_append, ih]
    split
    next hname => simp [valuesOf, hname]
    next hname => simp [valuesOf, hname]

/-- The parameters tell the search: each of its fields has a name of its own among them. -/
theorem parameters_injective {query other : Query} {sources otherSources : Sources}
    (heq : query.parameters sources = other.parameters otherSources) :
    query = other ∧ sources = otherSources := by
  have hvalues (name : Text) := congrArg (valuesOf name) heq
  have hsingle (value : Text) :
      [("query-string".toList, value)] = [value].map ("query-string".toList, ·) := rfl
  simp only [parameters, hsingle, valuesOf_append, valuesOf_map] at hvalues
  have hkey : [query.key] = [other.key] := by simpa using hvalues "query-string".toList
  have hsources : sources.toList = otherSources.toList := by simpa using hvalues "source".toList
  have hinverse : query.inverseAttribute = other.inverseAttribute := by
    simpa using congrArg List.head? (hvalues "inverse-attribute".toList)
  have htypes : query.typeFilters = other.typeFilters := by simpa using hvalues "type-filter".toList
  have hflags : query.flags = other.flags := by simpa using hvalues "flags".toList
  obtain ⟨hprimary, halternatives⟩ := List.cons.inj hsources
  cases query
  cases other
  cases sources
  cases otherSources
  simp only [Query.mk.injEq, Sources.mk.injEq]
  exact ⟨⟨(List.cons.inj hkey).1, hinverse, htypes, hflags⟩, hprimary,
    halternatives⟩

theorem parameters_ne_nil (query : Query) (sources : Sources) : query.parameters sources ≠ [] := by
  simp [parameters]

/-- A search URL is the base without the slashes at its end, the path of the search and a query part
of unreserved characters, percent signs and the marks between parameters. Read back, the query part
gives the parameters of the search in order. Under one base, no other search has the same URL. -/
theorem url_read_back (query : Query) (base : Text) (sources : Sources) :
    ∃ front slashes part,
      base = front ++ List.replicate slashes '/' ∧ front.getLast? ≠ some '/' ∧
      query.url base sources = front ++ "/search.xml?".toList ++ part ∧
      part.all isQueryChar = true ∧
      parameters? part = some (
        ("query-string".toList, query.key) :: ("source".toList, sources.primary) ::
          (sources.alternatives.map ("source".toList, ·) ++
            query.inverseAttribute.toList.map ("inverse-attribute".toList, ·) ++
            query.typeFilters.map ("type-filter".toList, ·) ++
            query.flags.map ("flags".toList, ·))) ∧
      ∀ other otherSources,
        other.url base otherSources = query.url base sources ↔
          other = query ∧ otherSources = sources := by
  obtain ⟨⟨slashes, hbase⟩, hlast⟩ := dropSlashes_spec base
  have hread (query : Query) (sources : Sources) :
      parameters? (parametersText (query.parameters sources)) = some (query.parameters sources) :=
    parameters?_parametersText (parameters_ne_nil query sources) fun _ => isNameChar_parameters
  refine ⟨dropSlashes base, slashes, parametersText (query.parameters sources), hbase, hlast, rfl,
    ?_, ?_, ?_⟩
  · rw [List.all_eq_true]
    exact isQueryChar_parametersText fun _ => isNameChar_parameters
  · rw [hread]
    simp [parameters, Sources.toList]
  · intro other otherSources
    constructor
    · intro hurl
      have hpart : parametersText (other.parameters otherSources) =
          parametersText (query.parameters sources) := List.append_cancel_left hurl
      have hparameters := hread other otherSources
      rw [hpart, hread query sources] at hparameters
      exact parameters_injective (Option.some.inj hparameters).symm
    · rintro ⟨rfl, rfl⟩
      rfl

/-- A value that looks like a further parameter adds none. -/
example : (byKey "AS1&flags=r#%41".toList).url "https://db//".toList ⟨"RÏPE".toList, []⟩ =
    "https://db/search.xml?query-string=AS1%26flags%3Dr%23%2541&source=R%C3%8FPE".toList := by
  decide +kernel

end Query

end RoutingPolicy
