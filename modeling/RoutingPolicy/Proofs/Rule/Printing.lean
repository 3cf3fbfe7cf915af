import RoutingPolicy.Proofs.Rule.Assignment

/-!
# Actions printed and read again

The text of an action is the statement that it was read from, without blanks and braces, so it is
divided at the same place when it is read again. Actions that are printed one behind the other are the
statements of a new clause, in which they stand without gaps.
-/

namespace RoutingPolicy

open Text

namespace ActionList

/-! ### Printed actions -/

/-- An action clause with the texts of actions in it, up to a boundary keyword and one word. -/
def printed (actions : List Action) (boundary : Keyword) (word : Text) : Text :=
  "ACTION ".toList ++ ("; ".toList.intercalate (actions.map Action.toText) ++ "; ".toList) ++
    boundary.name ++ [' '] ++ word

theorem intercalate_append_eq_leading {statements : List Text} (hne : statements ≠ []) :
    "; ".toList.intercalate statements ++ "; ".toList = leading (statements.map (· ++ [';'])) := by
  induction statements with
  | nil => exact absurd rfl hne
  | cons statement statements ih =>
    rw [List.map_cons, leading_cons]
    cases statements with
    | nil => simp
    | cons next statements =>
      rw [List.intercalate_cons_cons, List.append_assoc, ih (List.cons_ne_nil next statements)]
      simp

theorem leading_append_spaced (statements : List Text) (boundary : Keyword) (word : Text) :
    "ACTION ".toList ++ leading statements ++ boundary.name ++ [' '] ++ word =
      spaced ([] ++ Keyword.action.name :: (statements ++ boundary.name :: [word])) := by
  have haction : "ACTION ".toList = Keyword.action.name ++ [' '] := rfl
  rw [List.nil_append, ← List.cons_append, spaced_append_cons, leading_cons, haction,
    trailing_cons, trailing_nil]
  simp only [List.append_assoc, List.append_nil]

theorem ofRule?_statements {statements : List Text} (hne : statements ≠ [])
    (hstatements : ∀ statement ∈ statements, ';' ∉ statement) (direction : Direction)
    {boundary : Keyword} {word : Text} (hword : IsWord word)
    (hother : Keyword.ofWord? word ≠ some boundary) :
    ofRule? ("ACTION ".toList ++ ("; ".toList.intercalate statements ++ "; ".toList) ++
        boundary.name ++ [' '] ++ word) direction boundary =
      some ⟨direction, Action.ofStatements 0 statements⟩ := by
  have hafter : Without boundary [word] := by
    refine Without.singleton (containsKeyword_eq_false_iff.2 ?_)
    rw [lexemes_of_isLexeme (.inl hword)]
    exact List.forall_mem_singleton.2 hother
  rw [intercalate_append_eq_leading hne, leading_append_spaced]
  exact ofRule?_spaced direction hstatements (Without.nil .action) hafter

/-- Actions without semicolons that are read back one by one are read back together. -/
theorem ofRule?_printed {actions : List Action} (hprintable : ∀ action ∈ actions, action.Printable)
    (hunbroken : ∀ action ∈ actions, ';' ∉ action.toText) (direction : Direction)
    {boundary : Keyword} {word : Text} (hword : IsWord word)
    (hother : Keyword.ofWord? word ≠ some boundary) :
    ofRule? (printed actions boundary word) direction boundary =
      some ⟨direction, actions.mapIdx fun i action => { action with sequence := i }⟩ := by
  unfold printed
  cases actions with
  | nil =>
    -- nothing is printed between the first two words but a semicolon, which ends an empty statement
    have hempty := ofRule?_statements (List.cons_ne_nil [] []) (by simp) direction hword hother
    rw [List.intercalate_singleton] at hempty
    rw [List.map_nil, List.intercalate_nil, hempty]
    rfl
  | cons action actions =>
    have hsemicolon : ∀ statement ∈ (action :: actions).map Action.toText, ';' ∉ statement :=
      List.forall_mem_map.2 hunbroken
    rw [ofRule?_statements (by simp) hsemicolon direction hword hother,
      Action.ofStatements_map_toText hprintable]
    simp only [Nat.zero_add]

/-- The actions of a clause are numbered by their statements, and the list of them is read back when it
is printed, with the numbers that its actions have in it. -/
theorem ofRule?_printed_of_ofRule? {text : Text} {direction : Direction} {boundary : Keyword}
    {list : ActionList} (hlist : ofRule? text direction boundary = some list) :
    list.direction = direction ∧ list.actions.Pairwise (·.sequence < ·.sequence) ∧
    (∃ clause, HasClause boundary text clause ∧ ∀ action, action ∈ list.actions ↔
      ∃ statement, (splitOn ';' clause)[action.sequence]? = some statement ∧
        Action.ofStatement? action.sequence statement = some action) ∧
    ∀ word, IsWord word → Keyword.ofWord? word ≠ some boundary →
      ofRule? (printed list.actions boundary word) direction boundary =
        some ⟨direction, list.actions.mapIdx fun i action => { action with sequence := i }⟩ := by
  obtain ⟨clause, hclause, rfl⟩ := exists_hasClause_of_ofRule? hlist
  have hmem (action : Action) : action ∈ Action.ofStatements 0 (splitOn ';' clause) ↔
      ∃ statement, (splitOn ';' clause)[action.sequence]? = some statement ∧
        Action.ofStatement? action.sequence statement = some action := by
    rw [Action.mem_ofStatements_iff]
    constructor
    · rintro ⟨i, statement, hstatement, haction⟩
      rw [Nat.zero_add] at haction
      rw [Action.sequence_ofStatement? haction]
      exact ⟨statement, hstatement, haction⟩
    · rintro ⟨statement, hstatement, haction⟩
      exact ⟨action.sequence, statement, hstatement, by rwa [Nat.zero_add]⟩
  refine ⟨rfl, Action.pairwise_sequence_ofStatements 0 _, ⟨clause, hclause, hmem⟩,
    fun word hword hother => ofRule?_printed (fun action haction => ?_) (fun action haction => ?_)
      direction hword hother⟩
  · obtain ⟨statement, -, hread⟩ := (hmem action).1 haction
    exact Action.printable_ofStatement? hread
  · obtain ⟨statement, hstatement, hread⟩ := (hmem action).1 haction
    rw [Action.toText_of_ofStatement? hread]
    exact fun hsemicolon => not_mem_of_mem_splitOn (List.mem_of_getElem? hstatement)
      (List.mem_of_mem_filter hsemicolon)

/-- A statement that assigns nothing leaves a gap in the numbers, and the first `.=` divides a statement
although it has an `=` in front of it. -/
theorem printed_with_gap :
    let text := "FROM AS1 ACTION pref = 1; none; x=y . = z.=; ACCEPT AS-A".toList
    let actions := [⟨0, "pref".toList, .assign, "1".toList⟩,
      ⟨2, "x=y".toList, .appendAssign, "z.=".toList⟩]
    let word := "ANNOUNCE".toList
    ActionList.ofRule? text .incoming .accept = some ⟨.incoming, actions⟩ ∧ IsWord word ∧
      Keyword.ofWord? word ≠ some .accept ∧
      ActionList.ofRule? (printed actions .accept word) .incoming .accept =
        some ⟨.incoming, actions.mapIdx fun i action => { action with sequence := i }⟩ := by
  intro text actions word
  have hlist : ActionList.ofRule? text .incoming .accept = some ⟨.incoming, actions⟩ := by
    decide +kernel
  have hword : IsWord word := by decide
  have hother : Keyword.ofWord? word ≠ some .accept := by decide
  obtain ⟨-, -, -, hprinted⟩ := ofRule?_printed_of_ofRule? hlist
  exact ⟨hlist, hword, hother, hprinted word hword hother⟩

end ActionList

end RoutingPolicy
