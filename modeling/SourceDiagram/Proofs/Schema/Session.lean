import SourceDiagram.Proofs.Model.History
import SourceDiagram.Schema.Session

set_option autoImplicit false

namespace SourceDiagram.Schema

open SourceDiagram.Model

def after (texts : List String) : List Table :=
  texts.foldl (fun known text => (interpret known text).1) []

def history (texts : List String) : List Statement :=
  texts.flatMap fun text => statements text.toList

theorem upsert_columns (columns : List Column) (table : Table) :
    columns.foldl Table.upsertColumn table =
      { table with
        columns := columns.foldl (fun known fresh => upsert Column.name
          (fun old fresh => { old with spec := fresh.spec }) fresh known) table.columns } := by
  induction columns generalizing table with
  | nil => rfl
  | cons column columns ih => rw [List.foldl_cons, ih]; rfl

theorem read_table_name (statement : Statement) : (readTable statement).name = statement.name := by
  rw [readTable, upsert_columns]

theorem columns_sum_up (statement : Statement) :
    SumsUp Column.name (readColumns statement.body) (readTable statement).columns := by
  have replaces : ∀ old fresh : Column, old.name = fresh.name →
      { old with spec := fresh.spec } = fresh := by
    rintro ⟨oldName, oldSpec⟩ ⟨name, spec⟩ rfl
    rfl
  rw [readTable, upsert_columns]
  exact sums_up_upserts replaces (readColumns statement.body)

theorem column_after_upsert (table : Table) (column : Column) (name : String) :
    (table.upsertColumn column).column? name =
      if column.name = name then some column else table.column? name := by
  have found := @find_upsert _ _ _ Column.name (fun old fresh => { old with spec := fresh.spec })
    (fun _ _ => rfl) column table.columns name
  rw [Table.column?, Table.upsertColumn, found, ← Table.column?]
  by_cases same : column.name = name
  · rw [if_pos same, if_pos same]
    cases known : table.column? name with
    | none => rfl
    | some old =>
      have sought : old.name = name := by simpa using List.find?_some known
      simp [sought, ← same]
  · rw [if_neg same, if_neg same]

theorem column_after_upserts (columns : List Column) (table : Table) (name : String) :
    (columns.foldl Table.upsertColumn table).column? name =
      (columns.reverse.find? fun column => column.name = name).or (table.column? name) := by
  induction columns generalizing table with
  | nil => rfl
  | cons column columns ih =>
    rw [List.foldl_cons, ih, column_after_upsert, List.reverse_cons, List.find?_append,
      Option.or_assoc, List.find?_singleton]
    by_cases same : column.name = name
    · simp [same]
    · simp [same]

theorem column_read (statement : Statement) (name : String) :
    (readTable statement).column? name =
      (readColumns statement.body).reverse.find? fun column => column.name = name := by
  rw [readTable, column_after_upserts]
  exact Option.or_none

theorem after_next (texts : List String) (text : String) :
    after (texts ++ [text]) = (interpret (after texts) text).1 := by
  rw [after, List.foldl_concat]
  rfl

theorem texts_inserted (texts : List String) :
    after texts = ((history texts).map readTable).foldl insertTable [] := by
  induction texts using List.reverseRecOn with
  | nil => rfl
  | append_singleton texts text ih =>
    have step : history (texts ++ [text]) = history texts ++ statements text.toList := by
      simp [history]
    rw [after_next, ih, step, List.map_append, List.foldl_append]
    rfl

theorem tables_sum_up (texts : List String) :
    SumsUp Table.name ((history texts).map readTable) (after texts) := by
  rw [texts_inserted]
  exact sums_up_upserts (fun _ _ _ => rfl) _

theorem table_names (texts : List String) :
    (after texts).map Table.name = ((history texts).map Statement.name).eraseDups := by
  have names : ((history texts).map readTable).map Table.name =
      (history texts).map Statement.name := by
    rw [List.map_map]
    exact List.map_congr_left fun statement _ => read_table_name statement
  rw [(tables_sum_up texts).firstSeen, names]

theorem table_from_last {texts : List String} {table : Table} (known : table ∈ after texts) :
    ∃ earlier statement later, history texts = earlier ++ statement :: later ∧
      table = readTable statement ∧ ∀ other ∈ later, other.name ≠ table.name := by
  obtain ⟨before, behind, split, latest⟩ := (tables_sum_up texts).lastSeen table known
  obtain ⟨earlier, rest, whole, -, tail⟩ := List.map_eq_append_iff.mp split
  obtain ⟨statement, later, rfl, read, rfl⟩ := List.map_eq_cons_iff.mp tail
  refine ⟨earlier, statement, later, whole, read.symm, fun other present => ?_⟩
  rw [← read_table_name other]
  exact latest _ (List.mem_map_of_mem present)

theorem after_empty_iff (texts : List String) : after texts = [] ↔ history texts = [] := by
  rw [(tables_sum_up texts).isEmpty_iff, List.map_eq_nil_iff]

theorem found_iff (known : List Table) (text : String) :
    (interpret known text).2.1 = true ↔ (interpret known text).1 ≠ [] := by
  simp [interpret]

theorem found_after_iff (texts : List String) (text : String) :
    (interpret (after texts) text).2.1 = true ↔ history (texts ++ [text]) ≠ [] := by
  rw [found_iff, ← after_next, Ne, after_empty_iff]

theorem found_stays (texts between : List String) {text next : String}
    (found : (interpret (after texts) text).2.1 = true) :
    (interpret (after (texts ++ text :: between)) next).2.1 = true := by
  rw [found_after_iff] at found ⊢
  have longer : history (texts ++ text :: between ++ [next]) =
      history (texts ++ [text]) ++ history (between ++ [next]) := by
    simp [history]
  rw [longer]
  exact fun none => found (List.append_eq_nil_iff.mp none).1

-- Whatever texts are read, the tables are those of the statements in them: each name once, where
-- it was first created, with the columns of its last statement alone. In a table each column name
-- stands once, where it was first declared, with its last specification. A text gives whether
-- there is a table after it, which stays so.
theorem session_keeps_first_places_and_last_bodies (texts : List String) :
    ((after texts).map Table.name).Nodup ∧
    (after texts).map Table.name = ((history texts).map Statement.name).eraseDups ∧
    (∀ table ∈ after texts, ∃ earlier statement later,
      history texts = earlier ++ statement :: later ∧ table = readTable statement ∧
      table.name = statement.name ∧ (∀ other ∈ later, other.name ≠ table.name) ∧
      SumsUp Column.name (readColumns statement.body) table.columns) ∧
    (∀ known text, (interpret known text).2.1 = true ↔ (interpret known text).1 ≠ []) ∧
    ∀ between text next, (interpret (after texts) text).2.1 = true →
      (interpret (after (texts ++ text :: between)) next).2.1 = true := by
  refine ⟨(tables_sum_up texts).distinct, table_names texts, ?_, found_iff, ?_⟩
  · intro table known
    obtain ⟨earlier, statement, later, split, rfl, latest⟩ := table_from_last known
    exact ⟨earlier, statement, later, split, rfl, read_table_name statement, latest,
      columns_sum_up statement⟩
  · intro between text next found
    exact found_stays texts between found

theorem session_with_replaced_table :
    (after ["create table t (z);create table u (x);", "create table t (a b, c d, a e);"] =
        [⟨"t", [⟨"a", "e"⟩, ⟨"c", "d"⟩]⟩, ⟨"u", [⟨"x", ""⟩]⟩] ∧
      (interpret (after ["drop"]) "create table t (z);").2.1 = true) ∧
    (∃ earlier statement later,
      history ["create table t (z);create table u (x);", "create table t (a b, c d, a e);"] =
        earlier ++ statement :: later ∧
      (⟨"t", [⟨"a", "e"⟩, ⟨"c", "d"⟩]⟩ : Table) = readTable statement ∧
      ∀ other ∈ later, other.name ≠ "t") ∧
    (interpret (after (["drop"] ++ "create table t (z);" :: ["drop"])) "table").2.1 = true := by
  have tables : after ["create table t (z);create table u (x);", "create table t (a b, c d, a e);"] =
      [⟨"t", [⟨"a", "e"⟩, ⟨"c", "d"⟩]⟩, ⟨"u", [⟨"x", ""⟩]⟩] := by decide +kernel
  have found : (interpret (after ["drop"]) "create table t (z);").2.1 = true := by decide +kernel
  have known : (⟨"t", [⟨"a", "e"⟩, ⟨"c", "d"⟩]⟩ : Table) ∈
      after ["create table t (z);create table u (x);", "create table t (a b, c d, a e);"] := by
    rw [tables]
    exact List.mem_cons_self
  obtain ⟨-, -, bodies, -, -⟩ := session_keeps_first_places_and_last_bodies
    ["create table t (z);create table u (x);", "create table t (a b, c d, a e);"]
  obtain ⟨-, -, -, -, stays⟩ := session_keeps_first_places_and_last_bodies ["drop"]
  obtain ⟨earlier, statement, later, split, read, -, latest, -⟩ := bodies _ known
  exact ⟨⟨tables, found⟩, ⟨earlier, statement, later, split, read, latest⟩,
    stays ["drop"] _ _ found⟩

end SourceDiagram.Schema
