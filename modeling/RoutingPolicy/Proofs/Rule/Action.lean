import RoutingPolicy.Proofs.Rule.Division
import RoutingPolicy.Proofs.Text.Split
import RoutingPolicy.Rule.Action

/-!
# Facts about actions

The actions of one clause carry the positions of their statements, so no action occurs twice in it, and
each is read back from its text, which is its statement without blanks and braces. A rule has an action
clause exactly if it has the word `ACTION`, and two keywords tell where the clause begins and ends.
-/

namespace RoutingPolicy

open Text

namespace Action

theorem sequence_ofStatement? {sequence : Nat} {statement : Text} {action : Action}
    (haction : ofStatement? sequence statement = some action) : action.sequence = sequence := by
  unfold ofStatement? at haction
  simp only at haction
  split at haction
  next => rw [← Option.some.inj haction]
  next =>
    obtain ⟨parts, -, hparts⟩ := Option.map_eq_some_iff.1 haction
    rw [← hparts]

/-- An action comes from the statement at its place. -/
theorem mem_ofStatements_iff {sequence : Nat} {statements : List Text} {action : Action} :
    action ∈ ofStatements sequence statements ↔ ∃ i statement, statements[i]? = some statement ∧
      ofStatement? (sequence + i) statement = some action := by
  induction statements generalizing sequence with
  | nil => simp [ofStatements]
  | cons statement statements ih =>
    rw [ofStatements, List.mem_append, Option.mem_toList, ih]
    constructor
    · rintro (hhere | ⟨i, other, hother, haction⟩)
      · exact ⟨0, statement, rfl, hhere⟩
      · exact ⟨i + 1, other, hother, by rwa [← Nat.add_assoc, Nat.add_right_comm]⟩
    · rintro ⟨i, other, hother, haction⟩
      cases i with
      | zero =>
        obtain rfl : statement = other := Option.some.inj hother
        exact .inl haction
      | succ i => exact .inr ⟨i, other, hother, by rwa [Nat.add_right_comm, Nat.add_assoc]⟩

theorem le_sequence_ofStatements {statements : List Text} {sequence : Nat} {action : Action}
    (haction : action ∈ ofStatements sequence statements) : sequence ≤ action.sequence := by
  obtain ⟨i, statement, -, hread⟩ := mem_ofStatements_iff.1 haction
  rw [sequence_ofStatement? hread]
  exact Nat.le_add_right sequence i

/-- The positions increase along a clause. -/
theorem pairwise_sequence_ofStatements (sequence : Nat) (statements : List Text) :
    (ofStatements sequence statements).Pairwise (·.sequence < ·.sequence) := by
  induction statements generalizing sequence with
  | nil => exact List.Pairwise.nil
  | cons statement statements ih =>
    rw [ofStatements, List.pairwise_append]
    refine ⟨?_, ih (sequence + 1), ?_⟩
    · cases ofStatement? sequence statement <;> simp
    · intro action haction later hlater
      rw [sequence_ofStatement? (Option.mem_toList.1 haction)]
      exact le_sequence_ofStatements hlater

theorem nodup_ofStatements (sequence : Nat) (statements : List Text) :
    (ofStatements sequence statements).Nodup :=
  (pairwise_sequence_ofStatements sequence statements).imp fun hlt heq =>
    absurd (heq ▸ hlt) (Nat.lt_irrefl _)

theorem ofStatement?_filter (sequence : Nat) (statement : Text) :
    ofStatement? sequence (statement.filter isSignificant) = ofStatement? sequence statement := by
  rw [ofStatement?, ofStatement?, List.filter_filter]
  simp only [Bool.and_self]

theorem ofStatements_map_filter (sequence : Nat) (statements : List Text) :
    ofStatements sequence (statements.map (List.filter isSignificant)) =
      ofStatements sequence statements := by
  induction statements generalizing sequence with
  | nil => rfl
  | cons statement statements ih =>
    rw [List.map_cons, ofStatements, ofStatements, ofStatement?_filter, ih]

/-- The text of an action is its statement without the characters that do not count. -/
theorem toText_of_ofStatement? {sequence : Nat} {statement : Text} {action : Action}
    (haction : ofStatement? sequence statement = some action) :
    action.toText = statement.filter isSignificant := by
  unfold ofStatement? at haction
  simp only at haction
  split at haction
  next hsplit =>
    cases haction
    exact (eq_append_of_splitAt? hsplit).symm
  next =>
    obtain ⟨parts, hsplit, hparts⟩ := Option.map_eq_some_iff.1 haction
    cases hparts
    exact (eq_append_of_splitAt? hsplit).symm

theorem ofStatement?_of_sequence {sequence : Nat} {statement : Text} {action : Action}
    (haction : ofStatement? sequence statement = some action) (other : Nat) :
    ofStatement? other statement = some { action with sequence := other } := by
  unfold ofStatement? at haction ⊢
  simp only at haction ⊢
  split at haction
  next => rw [← Option.some.inj haction]
  next =>
    obtain ⟨parts, hsplit, hparts⟩ := Option.map_eq_some_iff.1 haction
    rw [hsplit, Option.map_some, ← hparts]

/-- An action is read back from its text as a statement at any place. -/
def Printable (action : Action) : Prop :=
  ∀ sequence, ofStatement? sequence action.toText = some { action with sequence := sequence }

theorem printable_ofStatement? {sequence : Nat} {statement : Text} {action : Action}
    (haction : ofStatement? sequence statement = some action) : action.Printable := by
  intro other
  rw [toText_of_ofStatement? haction, ofStatement?_filter, ofStatement?_of_sequence haction]

theorem ofStatements_map_toText {actions : List Action}
    (hactions : ∀ action ∈ actions, action.Printable) (sequence : Nat) :
    ofStatements sequence (actions.map toText) =
      actions.mapIdx fun i action => { action with sequence := sequence + i } := by
  induction actions generalizing sequence with
  | nil => rfl
  | cons action actions ih =>
    obtain ⟨haction, hlater⟩ := List.forall_mem_cons.1 hactions
    have hshift : ∀ i, sequence + 1 + i = sequence + (i + 1) := fun i => by omega
    rw [List.map_cons, ofStatements, haction sequence, ih hlater, List.mapIdx_cons,
      Option.toList_some, List.singleton_append]
    simp only [hshift, Nat.add_zero]

/-- Name and value are free of blanks, braces and semicolons. -/
def Unbroken (action : Action) : Prop :=
  ∀ c ∈ action.name ++ action.value, isWordChar c = true

theorem unbroken_ofStatement? {sequence : Nat} {statement : Text} {action : Action}
    (hsemicolon : ';' ∉ statement) (haction : ofStatement? sequence statement = some action) :
    action.Unbroken := by
  intro c hc
  have hmem : c ∈ statement.filter isSignificant := by
    rw [← toText_of_ofStatement? haction, toText, List.mem_append, List.mem_append]
    exact (List.mem_append.1 hc).imp_left .inl
  obtain ⟨hstatement, hsignificant⟩ := List.mem_filter.1 hmem
  have hne : c ≠ ';' := ne_of_mem_of_not_mem hstatement hsemicolon
  simp only [isSignificant, Bool.and_eq_true, bne_iff_ne, Bool.not_eq_true'] at hsignificant
  simp [isWordChar, isDelimiter, hsignificant, hne]

/-- Blanks and braces of an action clause do not matter. -/
theorem ofStatements_splitOn_filter (sequence : Nat) (clause : Text) :
    ofStatements sequence (splitOn ';' (clause.filter isSignificant)) =
      ofStatements sequence (splitOn ';' clause) := by
  rw [splitOn_filter (by decide), ofStatements_map_filter]

end Action

namespace ActionList

theorem isSome_ofRule? (text : Text) (direction : Direction) (boundary : Keyword) :
    (ofRule? text direction boundary).isSome = containsKeyword text .action := by
  have hnone : (tokenize text).dropWhile (!·.isKeyword .action) = [] ↔
      containsKeyword text .action = false := by
    rw [containsKeyword, List.any_eq_false, List.dropWhile_eq_nil_iff]
    simp
  unfold ofRule? clause?
  split
  next hdrop => simp [hnone.1 hdrop]
  next hdrop =>
    have htrue : containsKeyword text .action = true := by
      rw [← Bool.not_eq_false, ← hnone, hdrop]
      simp
    simp [htrue]

theorem direction_ofRule? {text : Text} {direction : Direction} {boundary : Keyword}
    {list : ActionList} (hlist : ofRule? text direction boundary = some list) :
    list.direction = direction := by
  obtain ⟨clause, -, rfl⟩ := Option.map_eq_some_iff.1 hlist
  rfl

theorem nodup_ofRule? {text : Text} {direction : Direction} {boundary : Keyword}
    {list : ActionList} (hlist : ofRule? text direction boundary = some list) :
    list.actions.Nodup := by
  obtain ⟨clause, -, rfl⟩ := Option.map_eq_some_iff.1 hlist
  exact Action.nodup_ofStatements 0 _

theorem unbroken_ofRule? {text : Text} {direction : Direction} {boundary : Keyword}
    {list : ActionList} (hlist : ofRule? text direction boundary = some list) {action : Action}
    (haction : action ∈ list.actions) : action.Unbroken := by
  obtain ⟨clause, -, rfl⟩ := Option.map_eq_some_iff.1 hlist
  obtain ⟨i, statement, hstatement, hread⟩ := Action.mem_ofStatements_iff.1 haction
  exact Action.unbroken_ofStatement?
    (not_mem_of_mem_splitOn (List.mem_of_getElem? hstatement)) hread

/-! ### The action clause -/

/-- The action clause of a text: what stands behind the first `ACTION`, and in front of the last
boundary keyword behind it, if there is one. -/
inductive HasClause (boundary : Keyword) (text : Text) : Text → Prop
  | bounded {before word rest clause mark after : Text}
      (haction : CutAtFirst .action text before word rest)
      (hboundary : CutAtLast boundary rest clause mark after) : HasClause boundary text clause
  | unbounded {before word rest : Text} (haction : CutAtFirst .action text before word rest)
      (hboundary : containsKeyword rest boundary = false) : HasClause boundary text rest

section Clause

variable {boundary : Keyword} {text before word rest clause : Text}

theorem dropWhile_of_cutAtFirst (haction : CutAtFirst .action text before word rest) :
    (tokenize text).dropWhile (!·.isKeyword .action) = ⟨word, byteSize before⟩ ::
      (tokenize rest).map (Token.shift (byteSize (before ++ word))) := by
  have hskip : ∀ token ∈ tokenize before, (!token.isKeyword .action) = true := by
    intro token htoken
    rw [isKeyword_of_mem_scan haction.before_eq_false htoken, Bool.not_false]
  have hword : Token.isKeyword .action ⟨word, byteSize before⟩ = true :=
    beq_iff_eq.2 haction.kind_eq
  rw [haction.eq_append, haction.cut.tokenize_eq, List.dropWhile_append_of_pos hskip,
    List.dropWhile_cons_of_neg (by simp [hword]), Token.scan_eq_map_shift]

theorem clause?_of_hasClause (hclause : HasClause boundary text clause) :
    clause? text boundary = some clause := by
  cases hclause with
  | @bounded before word rest _ mark after haction hboundary =>
    have htext : text = (before ++ word) ++ (clause ++ (mark ++ after)) := by
      rw [haction.eq_append, hboundary.eq_append, List.append_assoc clause]
    have htake : takeBytes (byteSize (before ++ word) + byteSize clause) text =
        before ++ word ++ clause := by
      rw [htext, takeBytes_add]
    rw [clause?, dropWhile_of_cutAtFirst haction]
    simp only [Token.last?_map_shift, hboundary.last?_eq, Option.map_some, Token.shift, htake,
      dropBytes_cut]
  | @unbounded before word _ haction hboundary =>
    rw [clause?, dropWhile_of_cutAtFirst haction]
    simp only [Token.last?_map_shift, Token.last?_eq_none hboundary, Option.map_none]
    rw [haction.eq_append, dropBytes_cut]

theorem exists_hasClause (haction : containsKeyword text .action = true) (boundary : Keyword) :
    ∃ clause, HasClause boundary text clause := by
  obtain ⟨before, word, rest, haction⟩ := exists_cutAtFirst haction
  cases hboundary : containsKeyword rest boundary with
  | true =>
    obtain ⟨clause, mark, after, hcut⟩ := exists_cutAtLast hboundary
    exact ⟨clause, .bounded haction hcut⟩
  | false => exact ⟨rest, .unbounded haction hboundary⟩

theorem exists_hasClause_of_ofRule? {direction : Direction} {list : ActionList}
    (hlist : ofRule? text direction boundary = some list) : ∃ clause,
      HasClause boundary text clause ∧
        list = ⟨direction, Action.ofStatements 0 (splitOn ';' clause)⟩ := by
  have haction : containsKeyword text .action = true := by
    rw [← isSome_ofRule? text direction boundary, hlist, Option.isSome_some]
  obtain ⟨clause, hclause⟩ := exists_hasClause haction boundary
  rw [ofRule?, clause?_of_hasClause hclause, Option.map_some] at hlist
  exact ⟨clause, hclause, (Option.some.inj hlist).symm⟩

end Clause

end ActionList

end RoutingPolicy
