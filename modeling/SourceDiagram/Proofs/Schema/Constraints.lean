import SourceDiagram.Proofs.Schema.Clauses
import SourceDiagram.Proofs.Schema.Session

set_option autoImplicit false

namespace SourceDiagram.Schema

open SourceDiagram.Model
open SourceDiagram.Text

def joinClauses (clauses : List (List Char)) : List Char :=
  [','].intercalate clauses

theorem joined_cons (clause next : List Char) (others : List (List Char)) :
    joinClauses (clause :: next :: others) = clause ++ ',' :: joinClauses (next :: others) := by
  rw [joinClauses, List.intercalate_cons_cons, List.append_assoc]
  rfl

-- Clauses that come apart again after commas were put between them: a parenthesis that is left open
-- in the last one alone takes no comma with it.
structure Cut (clauses : List (List Char)) : Prop where
  whole : ∀ clause ∈ clauses, splitClauses clause = [clause]
  closed : ∀ clause ∈ clauses.dropLast, clause.foldl depthAfter 0 = 0

theorem first_clause {depth : Nat} {body clause : List Char} {later : List (List Char)}
    (split : clausesFrom depth body = clause :: later) : clausesFrom depth clause = [clause] ∧
      (later = [] ∨ ∃ rest, clause.foldl depthAfter depth = 0 ∧ later = splitClauses rest) := by
  induction body generalizing depth clause with
  | nil =>
    obtain ⟨rfl, rfl⟩ := List.cons.inj split
    exact ⟨rfl, .inl rfl⟩
  | cons c cs ih =>
    by_cases comma : c = ',' ∧ depth = 0
    · obtain ⟨rfl, rfl⟩ := comma
      rw [clauses_comma] at split
      obtain ⟨rfl, rfl⟩ := List.cons.inj split
      exact ⟨rfl, .inr ⟨cs, rfl, rfl⟩⟩
    · obtain ⟨inner, others, found⟩ := List.exists_cons_of_ne_nil
        (clauses_nonempty (depthAfter depth c) cs)
      rw [clauses_inside cs comma, found] at split
      obtain ⟨rfl, rfl⟩ := List.cons.inj split
      obtain ⟨whole, left⟩ := ih found
      exact ⟨(whole_inside inner comma).mpr whole, left⟩

theorem split_cut {body : List Char} {clauses : List (List Char)}
    (split : splitClauses body = clauses) : Cut clauses := by
  induction clauses generalizing body with
  | nil => exact absurd split (clauses_nonempty 0 body)
  | cons clause later ih =>
    obtain ⟨whole, rfl | ⟨rest, closed, rfl⟩⟩ := first_clause split
    · exact ⟨List.forall_mem_singleton.mpr whole, by simp⟩
    · have others := ih rfl
      refine ⟨List.forall_mem_cons.mpr ⟨whole, others.whole⟩, ?_⟩
      have present : splitClauses rest ≠ [] := clauses_nonempty 0 rest
      rw [List.dropLast_cons_of_ne_nil present]
      exact List.forall_mem_cons.mpr ⟨closed, others.closed⟩

theorem joined_splits {clauses : List (List Char)} (cut : Cut clauses) (present : clauses ≠ []) :
    splitClauses (joinClauses clauses) = clauses := by
  induction clauses with
  | nil => contradiction
  | cons clause later ih =>
    cases later with
    | nil => simpa [joinClauses] using cut.whole clause List.mem_cons_self
    | cons next others =>
      have inner : Cut (next :: others) :=
        ⟨fun clause member => cut.whole clause (List.mem_cons_of_mem _ member),
          fun clause member => cut.closed clause (List.mem_cons_of_mem _ member)⟩
      have closed := cut.closed clause (by simp)
      have whole := cut.whole clause List.mem_cons_self
      rw [splitClauses] at whole
      rw [joined_cons, splitClauses, clauses_concat closed, whole, ih inner (List.cons_ne_nil _ _),
        List.singleton_append]

theorem Cut.without {before after : List (List Char)} {clause : List Char}
    (cut : Cut (before ++ clause :: after)) : Cut (before ++ after) := by
  refine ⟨fun other member => cut.whole other ?_, fun other member => cut.closed other ?_⟩
  · rcases List.mem_append.mp member with front | back
    · exact List.mem_append_left _ front
    · exact List.mem_append_right _ (List.mem_cons_of_mem _ back)
  · -- The last clause may be the one that is left out; what comes before it was closed anyway.
    rw [List.dropLast_append_cons]
    cases after with
    | nil =>
      rw [List.append_nil] at member
      exact List.mem_append_left _ (List.dropLast_subset _ member)
    | cons next others =>
      rw [List.dropLast_append_cons] at member
      rw [List.dropLast_cons_of_ne_nil (List.cons_ne_nil _ _)]
      rcases List.mem_append.mp member with front | back
      · exact List.mem_append_left _ front
      · exact List.mem_append_right _ (List.mem_cons_of_mem _ back)

theorem columns_of_joined {clauses : List (List Char)} (cut : Cut clauses) :
    readColumns (joinClauses clauses) = clauses.filterMap readColumn? := by
  cases clauses with
  | nil => rfl
  | cons clause later => rw [readColumns, joined_splits cut (List.cons_ne_nil _ _)]

theorem table_without {statement : Statement} {before after : List (List Char)}
    {clause : List Char} (split : splitClauses statement.body = before ++ clause :: after)
    (unread : readColumn? clause = none) :
    readTable statement =
      readTable { statement with body := joinClauses (before ++ after) } := by
  have columns : readColumns statement.body = readColumns (joinClauses (before ++ after)) := by
    rw [columns_of_joined (split_cut split).without, readColumns, split, List.filterMap_append,
      List.filterMap_cons_none unread, ← List.filterMap_append]
  rw [readTable, columns]
  rfl

section

variable {clause word rest : List Char} (line : trim clause = word ++ rest)
  (constraint : isConstraintWord word = true)

include line constraint

theorem spaced_constraint_unread (spaced : ∀ c ∈ rest.head?, isBlank c = true) :
    readColumn? clause = none := by
  have solid : ∀ c ∈ word, isBlank c = false :=
    fun c member => ((constraint_letters constraint).2 c member).1
  have head : clauseHead (trim clause) = word := by
    rw [clauseHead, line, (word_split solid spaced).1, trim_constraint constraint]
  rw [readColumn?, head, constraint, Bool.or_true, if_pos rfl]

end

-- The parenthesis belongs to the first word of the clause, which is then no word of a constraint.
theorem closed_constraint_read {clause word more : List Char}
    (line : trim clause = word ++ '(' :: more) (constraint : isConstraintWord word = true) :
    ∃ column behind, readColumn? clause = some column ∧
      column.name.toList = word ++ '(' :: behind := by
  obtain ⟨present, letters⟩ := constraint_letters constraint
  have paren : isBlank '(' = false := by decide
  have solid : ∀ c ∈ word, (!isBlank c) = true := by
    intro c member
    rw [(letters c member).1]
    rfl
  obtain ⟨first, letters', rfl⟩ := List.exists_cons_of_ne_nil present
  have unquoted : (first == '"') = false := by
    simpa using fun same => (letters first List.mem_cons_self).2 (by simp [same])
  have head : clauseHead (trim clause) = first :: letters' ++
      '(' :: trimEnd (· == '"') (more.takeWhile fun c => !isBlank c) := by
    rw [clauseHead, line, List.takeWhile_append_of_pos solid,
      List.takeWhile_cons_of_pos (by simp [paren]), trimBoth, List.cons_append,
      List.dropWhile_cons_of_neg (by simp [unquoted]), ← List.cons_append]
    exact trim_end_kept (by decide) _ _
  have free : isConstraintWord (clauseHead (trim clause)) = false := by
    rw [← Bool.not_eq_true, head]
    intro word
    exact ((constraint_letters word).2 '(' (by simp)).2 (by simp)
  have read : (trim clause).isEmpty = false := by
    rw [line]
    rfl
  refine ⟨⟨String.ofList (clauseHead (trim clause)), String.ofList (clauseRest (trim clause))⟩,
    trimEnd (· == '"') (more.takeWhile fun c => !isBlank c), ?_, ?_⟩
  · rw [readColumn?, read, free]
    rfl
  · rw [String.toList_ofList]
    exact head

theorem column_kept {statement : Statement} {clause : List Char} {column : Column}
    (present : clause ∈ splitClauses statement.body) (read : readColumn? clause = some column) :
    ∃ kept ∈ (readTable statement).columns, kept.name = column.name := by
  have known : column ∈ readColumns statement.body := List.mem_filterMap.mpr ⟨clause, present, read⟩
  have named : column.name ∈ (readTable statement).columns.map Column.name := by
    rw [(columns_sum_up statement).firstSeen, List.mem_eraseDups]
    exact List.mem_map_of_mem known
  exact List.mem_map.mp named

-- A clause that begins with the word of a constraint declares no column, and can be left out of its
-- body, exactly where no parenthesis follows the word at once. Where one does, the word is in the
-- table as the beginning of a column's name.
theorem constraints_unread_iff_spaced (statement : Statement) {before after : List (List Char)}
    {clause word rest : List Char} (split : splitClauses statement.body = before ++ clause :: after)
    (line : trim clause = word ++ rest) (constraint : isConstraintWord word = true)
    (ended : ∀ c ∈ rest.head?, isBlank c = true ∨ c = '(') :
    (readColumn? clause = none ↔ rest.head? ≠ some '(') ∧
    (rest.head? ≠ some '(' → readTable statement =
      readTable { statement with body := joinClauses (before ++ after) }) ∧
    (rest.head? = some '(' → ∃ column ∈ (readTable statement).columns, ∃ behind,
      column.name.toList = word ++ '(' :: behind) := by
  by_cases closed : rest.head? = some '('
  · obtain ⟨more, rfl⟩ : ∃ more, rest = '(' :: more := by
      cases rest with
      | nil => cases closed
      | cons c more => exact ⟨more, by rw [Option.some.inj closed]⟩
    obtain ⟨column, behind, read, named⟩ := closed_constraint_read line constraint
    have present : clause ∈ splitClauses statement.body := by
      rw [split]
      exact List.mem_append_right _ List.mem_cons_self
    obtain ⟨kept, known, same⟩ := column_kept present read
    refine ⟨by simp [read], fun other => absurd closed other, fun _ => ?_⟩
    exact ⟨kept, known, behind, by rw [same, named]⟩
  · have spaced : ∀ c ∈ rest.head?, isBlank c = true := by
      intro c member
      exact (ended c member).resolve_right fun same => closed (same ▸ member)
    have unread := spaced_constraint_unread line constraint spaced
    exact ⟨by simp [unread, closed], fun _ => table_without split unread,
      fun same => absurd same closed⟩

def keyedBody : List Char := "a INT, Primary\nKEY (a, b), b INT".toList

def closedBody : List Char := "a INT, UNIQUE(a, b)".toList

theorem keyed_table_without_key :
    ((splitClauses keyedBody =
        ["a INT".toList] ++ " Primary\nKEY (a, b)".toList :: [" b INT".toList] ∧
      trim " Primary\nKEY (a, b)".toList = "Primary".toList ++ "\nKEY (a, b)".toList ∧
      isConstraintWord "Primary".toList = true ∧
      ∀ c ∈ "\nKEY (a, b)".toList.head?, isBlank c = true ∨ c = '(') ∧
      readTable ⟨none, ['t'], keyedBody⟩ = readTable ⟨none, ['t'], "a INT, b INT".toList⟩) ∧
    (splitClauses closedBody = ["a INT".toList] ++ " UNIQUE(a, b)".toList :: [] ∧
      trim " UNIQUE(a, b)".toList = "UNIQUE".toList ++ "(a, b)".toList ∧
      isConstraintWord "UNIQUE".toList = true ∧
      ∀ c ∈ "(a, b)".toList.head?, isBlank c = true ∨ c = '(') ∧
    ∃ column ∈ (readTable ⟨none, ['t'], closedBody⟩).columns, ∃ behind,
      column.name.toList = "UNIQUE".toList ++ '(' :: behind := by
  have keyed : splitClauses keyedBody =
      ["a INT".toList] ++ " Primary\nKEY (a, b)".toList :: [" b INT".toList] := by decide +kernel
  have keyLine : trim " Primary\nKEY (a, b)".toList =
      "Primary".toList ++ "\nKEY (a, b)".toList := by decide +kernel
  have keyWord : isConstraintWord "Primary".toList = true := by decide +kernel
  have keyEnded : ∀ c ∈ "\nKEY (a, b)".toList.head?, isBlank c = true ∨ c = '(' := by
    intro c member
    have next : "\nKEY (a, b)".toList.head? = some '\n' := by decide
    rw [← Option.some.inj (next.symm.trans member)]
    exact .inl rfl
  have closed : splitClauses closedBody = ["a INT".toList] ++ " UNIQUE(a, b)".toList :: [] := by
    decide +kernel
  have line : trim " UNIQUE(a, b)".toList = "UNIQUE".toList ++ "(a, b)".toList := by
    decide +kernel
  have word : isConstraintWord "UNIQUE".toList = true := by decide +kernel
  have ended : ∀ c ∈ "(a, b)".toList.head?, isBlank c = true ∨ c = '(' := by
    intro c member
    have next : "(a, b)".toList.head? = some '(' := by decide
    exact .inr (Option.some.inj (next.symm.trans member)).symm
  obtain ⟨-, without, -⟩ :=
    constraints_unread_iff_spaced ⟨none, ['t'], keyedBody⟩ keyed keyLine keyWord keyEnded
  obtain ⟨-, -, kept⟩ :=
    constraints_unread_iff_spaced ⟨none, ['t'], closedBody⟩ closed line word ended
  refine ⟨⟨⟨keyed, keyLine, keyWord, keyEnded⟩, without (by decide)⟩,
    ⟨closed, line, word, ended⟩, kept (by decide)⟩

theorem closed_unique_becomes_column :
    splitClauses closedBody = ["a INT".toList, " UNIQUE(a, b)".toList] ∧
    trim " UNIQUE(a, b)".toList = "UNIQUE".toList ++ "(a, b)".toList ∧
    isConstraintWord "UNIQUE".toList = true ∧
    readTable ⟨none, ['t'], closedBody⟩ ≠
      readTable ⟨none, ['t'], joinClauses ["a INT".toList]⟩ ∧
    tablesOf "CREATE TABLE t (a INT, UNIQUE(a, b));" =
      [⟨"t", [⟨"a", "INT"⟩, ⟨"UNIQUE(a,", "b)"⟩]⟩] := by
  decide +kernel

end SourceDiagram.Schema
