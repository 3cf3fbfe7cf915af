import RoutingPolicy.Proofs.Rule.Action
import RoutingPolicy.Proofs.Rule.Parts

/-!
# Action clauses written in parts

An assignment is found again in its written form when its name has no `=` and its value no `.=`. In
an action clause the statements are found between the semicolons, whatever they say.
-/

namespace RoutingPolicy

open Text

/-- An assignment that can be written in an action clause. -/
structure Assignment where
  name : Text
  operator : Operator
  value : Text
  name_plain : ∀ c ∈ name, isWordChar c = true ∧ c ≠ '='
  name_last : name.getLast? ≠ some '.'
  value_plain : ∀ c ∈ value, isWordChar c = true
  value_unmarked : ¬Operator.appendAssign.toText <:+: value

namespace Assignment

/-- The action that the assignment makes as the statement at a position. -/
def action (assignment : Assignment) (sequence : Nat) : Action :=
  ⟨sequence, assignment.name, assignment.operator, assignment.value⟩

def toText (assignment : Assignment) : Text := (assignment.action 0).toText

variable (assignment : Assignment)

theorem equals_mem_toText : '=' ∈ assignment.toText := by
  refine List.mem_append_left _ (List.mem_append_right _ ?_)
  show '=' ∈ assignment.operator.toText
  cases assignment.operator <;> decide

theorem isWord_toText : IsWord assignment.toText := by
  have hoperator : ∀ c ∈ assignment.operator.toText, isWordChar c = true := by
    rw [← List.all_eq_true]
    cases assignment.operator <;> decide
  have hname : ∀ c ∈ assignment.name, isWordChar c = true := fun c hc =>
    (assignment.name_plain c hc).1
  exact ⟨List.ne_nil_of_mem assignment.equals_mem_toText, List.forall_mem_append.2
    ⟨List.forall_mem_append.2 ⟨hname, hoperator⟩, assignment.value_plain⟩⟩

theorem plainWord_toText : PlainWord assignment.toText := by
  refine ⟨assignment.isWord_toText, Keyword.ofWord?_eq_none assignment.equals_mem_toText ?_⟩
  intro keyword
  cases keyword <;> decide

/-! ### Reading one statement -/

theorem isSignificant_of_isWordChar {c : Char} (hc : isWordChar c = true) :
    Action.isSignificant c = true := by
  simp only [isWordChar, isDelimiter, Bool.and_eq_true, Bool.not_eq_true', Bool.or_eq_false_iff,
    beq_eq_false_iff_ne] at hc
  simp [Action.isSignificant, hc]

/-- A name without `=` that does not end in a point holds no `.=`, also not at its end. -/
theorem unmarked_append {name value : Text} (hname : ∀ c ∈ name, c ≠ '=')
    (hlast : name.getLast? ≠ some '.') (hvalue : ¬Operator.appendAssign.toText <:+: value) :
    ¬Operator.appendAssign.toText <:+: name ++ '=' :: value := by
  induction name with
  | nil =>
    rw [List.nil_append, List.infix_cons_iff, not_or]
    refine ⟨?_, hvalue⟩
    rw [Operator.toText, List.cons_prefix_cons, not_and_or]
    exact .inl (by decide)
  | cons c name ih =>
    have htail : name.getLast? ≠ some '.' := by
      cases name with
      | nil => simp
      | cons d name => rwa [List.getLast?_cons_cons] at hlast
    rw [List.cons_append, List.infix_cons_iff, not_or]
    refine ⟨?_, ih (fun d hd => hname d (List.mem_cons_of_mem c hd)) htail⟩
    rw [Operator.toText, List.cons_prefix_cons]
    rintro ⟨rfl, hequals⟩
    cases name with
    | nil => exact hlast rfl
    | cons d name =>
      rw [List.cons_append, List.cons_prefix_cons] at hequals
      exact hname d (by simp) hequals.1.symm

theorem splitAt?_name {name : Text} (hname : ∀ c ∈ name, c ≠ '=') (operator : Operator)
    (value : Text) : splitAt? operator.toText (name ++ (operator.toText ++ value)) =
      some (name, value) := by
  refine splitAt?_append value ?_
  intro start hne hstart hbegins
  obtain ⟨c, rest, rfl⟩ := List.exists_cons_of_ne_nil hne
  have hmem : ∀ d ∈ c :: rest, d ≠ '=' := fun d hd => hname d (hstart.subset hd)
  cases operator with
  | assign =>
    rw [Operator.toText, List.cons_append, List.cons_prefix_cons] at hbegins
    exact hmem c List.mem_cons_self hbegins.1.symm
  | appendAssign =>
    rw [Operator.toText, List.cons_append, List.cons_prefix_cons] at hbegins
    cases rest with
    | nil =>
      rw [List.nil_append, List.cons_append, List.cons_prefix_cons] at hbegins
      exact absurd hbegins.2.1 (by decide)
    | cons d rest =>
      rw [List.cons_append, List.cons_prefix_cons] at hbegins
      exact hmem d (by simp) hbegins.2.1.symm

theorem ofStatement?_toText (sequence : Nat) :
    Action.ofStatement? sequence assignment.toText = some (assignment.action sequence) := by
  have hsignificant : assignment.toText.filter Action.isSignificant = assignment.toText :=
    List.filter_eq_self.2 fun c hc => isSignificant_of_isWordChar (assignment.isWord_toText.2 c hc)
  have hname : ∀ c ∈ assignment.name, c ≠ '=' := fun c hc => (assignment.name_plain c hc).2
  have hsplit := splitAt?_name hname assignment.operator assignment.value
  have htext : assignment.toText =
      assignment.name ++ (assignment.operator.toText ++ assignment.value) :=
    List.append_assoc _ _ _
  rw [Action.ofStatement?, hsignificant, htext]
  cases hoperator : assignment.operator with
  | assign =>
    have hnone : splitAt? Operator.appendAssign.toText
        (assignment.name ++ (Operator.assign.toText ++ assignment.value)) = none :=
      splitAt?_eq_none (unmarked_append hname assignment.name_last assignment.value_unmarked)
    rw [hoperator] at hsplit
    simp only [hnone, hsplit, Option.map_some, action, hoperator]
  | appendAssign =>
    rw [hoperator] at hsplit
    simp only [hsplit, action, hoperator]

/-! ### Reading the statements of a clause -/

theorem ofStatements_toText (assignments : List Assignment) (sequence : Nat) :
    Action.ofStatements sequence (assignments.map toText) =
      assignments.mapIdx fun i assignment => assignment.action (sequence + i) := by
  have hprintable : ∀ written ∈ assignments.map (action · 0), written.Printable := by
    intro written hwritten
    obtain ⟨assignment, -, rfl⟩ := List.mem_map.1 hwritten
    exact assignment.ofStatement?_toText
  have hread := Action.ofStatements_map_toText hprintable sequence
  rw [List.map_map] at hread
  refine hread.trans (List.ext_getElem? fun i => ?_)
  rw [List.getElem?_mapIdx, List.getElem?_mapIdx, List.getElem?_map, Option.map_map]
  rfl

end Assignment

namespace ActionList

/-- The blanks around statements do not count. -/
theorem ofStatements_spaces (sequence : Nat) (statements : List Text) :
    Action.ofStatements sequence (statements.map ([' '] ++ ·) ++ [[' ']]) =
      Action.ofStatements sequence statements := by
  have hspace : ∀ (sequence : Nat) (statement : Text),
      Action.ofStatement? sequence ([' '] ++ statement) =
        Action.ofStatement? sequence statement := by
    intro sequence statement
    rw [Action.ofStatement?, Action.ofStatement?, List.singleton_append,
      List.filter_cons_of_neg (by decide)]
  induction statements generalizing sequence with
  | nil => rfl
  | cons statement statements ih =>
    rw [List.map_cons, List.cons_append, Action.ofStatements, Action.ofStatements, hspace, ih]

/-- The statements of a clause in which each of them ends in a semicolon. -/
theorem splitOn_statements {statements : List Text}
    (hstatements : ∀ text ∈ statements, ';' ∉ text) :
    splitOn ';' ([' '] ++ leading (statements.map (· ++ [';']))) =
      statements.map ([' '] ++ ·) ++ [[' ']] := by
  induction statements with
  | nil => rfl
  | cons statement statements ih =>
    obtain ⟨hstatement, hrest⟩ := List.forall_mem_cons.1 hstatements
    have hnot : ';' ∉ [' '] ++ statement := by simpa using hstatement
    have htext : [' '] ++ leading ((statement :: statements).map (· ++ [';'])) =
        ([' '] ++ statement) ++ ';' :: ([' '] ++ leading (statements.map (· ++ [';']))) := by
      rw [List.map_cons, leading_cons]
      simp only [List.append_assoc, List.cons_append, List.nil_append]
    rw [htext, splitOn_eq_list_splitOn, List.splitOn_append_cons_self_of_not_mem hnot,
      ← splitOn_eq_list_splitOn, ih hrest]
    rfl

variable {boundary : Keyword} {before after : List Text}

/-- Whatever holds an equals sign is read as some action. -/
theorem isSome_ofStatement? (sequence : Nat) {statement : Text} (hmem : '=' ∈ statement) :
    (Action.ofStatement? sequence statement).isSome = true := by
  have hsignificant : '=' ∈ statement.filter Action.isSignificant :=
    List.mem_filter.2 ⟨hmem, by decide⟩
  rw [Action.ofStatement?]
  split
  next => rfl
  next =>
    rw [Option.isSome_map]
    exact isSome_splitAt?_of_mem hsignificant

theorem length_ofStatements (sequence : Nat) {statements : List Text}
    (hstatements : ∀ statement ∈ statements, '=' ∈ statement) :
    (Action.ofStatements sequence statements).length = statements.length := by
  induction statements generalizing sequence with
  | nil => rfl
  | cons statement statements ih =>
    obtain ⟨hstatement, hrest⟩ := List.forall_mem_cons.1 hstatements
    obtain ⟨action, haction⟩ := Option.isSome_iff_exists.1 (isSome_ofStatement? sequence hstatement)
    rw [Action.ofStatements, haction, Option.toList_some, List.singleton_append, List.length_cons,
      ih _ hrest, List.length_cons]

/-- The clause begins behind the first `ACTION` and ends before the last boundary keyword. -/
theorem clause?_spaced (statements : List Text) (hbefore : Without .action before)
    (hafter : Without boundary after) :
    clause? (spaced (before ++ Keyword.action.name :: (statements ++ boundary.name :: after)))
      boundary = some ([' '] ++ leading statements) :=
  clause?_of_hasClause
    (.bounded (cutAtFirst_spaced hbefore _) (cutAtLast_trailing statements hafter))

theorem ofRule?_spaced {statements : List Text} (direction : Direction)
    (hstatements : ∀ text ∈ statements, ';' ∉ text) (hbefore : Without .action before)
    (hafter : Without boundary after) :
    ofRule? (spaced (before ++ Keyword.action.name ::
        (statements.map (· ++ [';']) ++ boundary.name :: after))) direction boundary =
      some ⟨direction, Action.ofStatements 0 statements⟩ := by
  rw [ofRule?, clause?_spaced _ hbefore hafter, Option.map_some, splitOn_statements hstatements,
    ofStatements_spaces]

end ActionList

end RoutingPolicy
