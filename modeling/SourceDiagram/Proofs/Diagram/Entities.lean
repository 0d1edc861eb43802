import SourceDiagram.Proofs.Diagram.Layout

set_option autoImplicit false

namespace SourceDiagram.Diagram

open SourceDiagram.Model
open SourceDiagram.Text

def entityName? (line : String) : Option String := do
  let rest ← "entity ".toList.isPrefixOf? line.toList
  return String.ofList (← " \x7b".toList.isSuffixOf? rest)

def columnOf? (line : String) : Option Column := do
  let rest ← "\t+ ".toList.isPrefixOf? line.toList
  let name ← ":".toList.isSuffixOf? (rest.takeWhile fun c => !isBlank c)
  return ⟨String.ofList name, String.ofList ((rest.dropWhile fun c => !isBlank c).drop 1)⟩

structure Progress where
  complete : List Table
  current : Option Table
deriving DecidableEq, Repr

def readLine (progress : Progress) (line : String) : Progress :=
  match progress.current with
  | none =>
    match entityName? line with
    | some name => { progress with current := some ⟨name, []⟩ }
    | none => progress
  | some table =>
    match columnOf? line with
    | some column =>
      { progress with current := some { table with columns := table.columns ++ [column] } }
    | none => ⟨progress.complete ++ [table], none⟩

def readLines (progress : Progress) (lines : List String) : Progress :=
  lines.foldl readLine progress

def readTables (markup : String) : List Table :=
  (readLines ⟨[], none⟩ (linesOf markup)).complete

-- A table whose texts stay within their lines, and the names of its columns within their words.
structure Legible (table : Table) : Prop where
  name : '\n' ∉ table.name.toList
  columns : ∀ column ∈ table.columns,
    (∀ c ∈ column.name.toList, isBlank c = false) ∧ '\n' ∉ column.spec.toList

instance (table : Table) : Decidable (Legible table) :=
  decidable_of_iff ('\n' ∉ table.name.toList ∧ ∀ column ∈ table.columns,
      (∀ c ∈ column.name.toList, isBlank c = false) ∧ '\n' ∉ column.spec.toList)
    ⟨fun ⟨name, columns⟩ => ⟨name, columns⟩, fun ⟨name, columns⟩ => ⟨name, columns⟩⟩

theorem entity_name_of_header (name : String) : entityName? (header "entity" name) = some name := by
  have front : "entity ".toList.isPrefixOf? (header "entity" name).toList =
      some (name.toList ++ " \x7b".toList) :=
    List.isPrefixOf?_eq_some_iff_append_eq.mpr (by simp [header])
  have back : " \x7b".toList.isSuffixOf? (name.toList ++ " \x7b".toList) = some name.toList :=
    List.isSuffixOf?_eq_some_iff_append_eq.mpr rfl
  rw [entityName?, front, Option.bind_eq_bind, Option.bind_some, back]
  simp

theorem column_of_line {column : Column} (solid : ∀ c ∈ column.name.toList, isBlank c = false) :
    columnOf? (columnLine column) = some column := by
  have front : "\t+ ".toList.isPrefixOf? (columnLine column).toList =
      some (column.name.toList ++ [':'] ++ ' ' :: column.spec.toList) :=
    List.isPrefixOf?_eq_some_iff_append_eq.mpr (by simp [columnLine])
  have word : ∀ c ∈ column.name.toList ++ [':'], isBlank c = false :=
    List.forall_mem_append.mpr ⟨solid, by decide⟩
  have space : ∀ c ∈ (' ' :: column.spec.toList).head?, isBlank c = true := by
    rintro c ⟨⟩
    decide
  obtain ⟨kept, left⟩ := word_split word space
  have back : ":".toList.isSuffixOf? (column.name.toList ++ [':']) = some column.name.toList :=
    List.isSuffixOf?_eq_some_iff_append_eq.mpr rfl
  rw [columnOf?, front, Option.bind_eq_bind, Option.bind_some, kept, left, back]
  simp

theorem column_of_footer : columnOf? footer = none := by decide

section

variable {complete : List Table} {table : Table}

theorem read_outside {line : String} (plain : entityName? line = none) :
    readLine ⟨complete, none⟩ line = ⟨complete, none⟩ := by
  simp only [readLine, plain]

theorem read_header (name : String) :
    readLine ⟨complete, none⟩ (header "entity" name) = ⟨complete, some ⟨name, []⟩⟩ := by
  simp only [readLine, entity_name_of_header]

theorem read_column {column : Column} (solid : ∀ c ∈ column.name.toList, isBlank c = false) :
    readLine ⟨complete, some table⟩ (columnLine column) =
      ⟨complete, some { table with columns := table.columns ++ [column] }⟩ := by
  simp only [readLine, column_of_line solid]

theorem read_footer :
    readLine ⟨complete, some table⟩ footer = ⟨complete ++ [table], none⟩ := by
  simp only [readLine, column_of_footer]

end

@[simp] theorem read_lines_nil (progress : Progress) : readLines progress [] = progress := rfl

@[simp] theorem read_lines_cons (progress : Progress) (line : String) (lines : List String) :
    readLines progress (line :: lines) = readLines (readLine progress line) lines := rfl

@[simp] theorem read_lines_append (progress : Progress) (front back : List String) :
    readLines progress (front ++ back) = readLines (readLines progress front) back :=
  List.foldl_append

theorem columns_read (complete : List Table) (name : String) (known : List Column)
    {columns : List Column}
    (solid : ∀ column ∈ columns, ∀ c ∈ column.name.toList, isBlank c = false) :
    readLines ⟨complete, some ⟨name, known⟩⟩ (columns.map columnLine) =
      ⟨complete, some ⟨name, known ++ columns⟩⟩ := by
  induction columns generalizing known with
  | nil => simp
  | cons column columns ih =>
    obtain ⟨first, later⟩ := List.forall_mem_cons.mp solid
    rw [List.map_cons, read_lines_cons, read_column first, ih _ later, List.append_assoc,
      List.singleton_append]

theorem table_read (complete : List Table) {table : Table} (legible : Legible table) :
    readLines ⟨complete, none⟩ (tableLines table) = ⟨complete ++ [table], none⟩ := by
  have empty : entityName? "" = none := by decide
  have columns := columns_read complete table.name [] fun column known =>
    (legible.columns column known).1
  simp [tableLines, read_outside empty, read_header, columns, read_footer]

theorem tables_read (complete : List Table) {tables : List Table}
    (legible : ∀ table ∈ tables, Legible table) :
    readLines ⟨complete, none⟩ (tables.flatMap tableLines) = ⟨complete ++ tables, none⟩ := by
  induction tables generalizing complete with
  | nil => simp
  | cons table tables ih =>
    obtain ⟨first, later⟩ := List.forall_mem_cons.mp legible
    rw [List.flatMap_cons, read_lines_append, table_read complete first, ih _ later,
      List.append_assoc, List.singleton_append]

theorem schema_lines_read {tables : List Table} (legible : ∀ table ∈ tables, Legible table) :
    readLines ⟨[], none⟩ (schemaLines tables) = ⟨tables, none⟩ := by
  have front : readLines ⟨[], none⟩ ([opening, ""] ++ directives) = ⟨[], none⟩ := by decide
  have last : entityName? closing = none := by decide
  rw [schemaLines, read_lines_append, read_lines_append, front, tables_read [] legible,
    read_lines_cons, List.nil_append, read_outside last, read_lines_nil]

theorem Legible.solid {table : Table} (legible : Legible table) : NamesSolid table :=
  fun column declared => breaks_in_solid (legible.columns column declared).1

theorem tables_read_back {tables : List Table} (legible : ∀ table ∈ tables, Legible table) :
    readTables (schemaMarkup tables) = tables := by
  have flat : ∀ text ∈ tables.flatMap tableTexts, '\n' ∉ text.toList := by
    intro text member
    obtain ⟨table, known, inside⟩ := List.mem_flatMap.mp member
    rcases List.mem_cons.mp inside with rfl | inside
    · exact (legible table known).name
    · obtain ⟨column, declared, rfl⟩ := List.mem_map.mp inside
      exact ((legible table known).columns column declared).2
  rw [readTables, lines_of_schema (fun table known => (legible table known).solid) flat,
    schema_lines_read legible]

-- The diagram of tables whose texts hold no line feed, and whose columns have names without white
-- space, as all that are read from texts have, gives back the tables with all names, columns and
-- specifications in order. So no other such tables have the same diagram.
theorem schema_markup_determines_tables :
    (∀ tables : List Table, (∀ table ∈ tables, Legible table) →
      readTables (schemaMarkup tables) = tables ∧
      ∀ others : List Table, (∀ table ∈ others, Legible table) →
        schemaMarkup tables = schemaMarkup others → tables = others) ∧
    ∀ texts, ∀ table ∈ Schema.after texts, ∀ column ∈ table.columns,
      ∀ c ∈ column.name.toList, isBlank c = false := by
  constructor
  · intro tables legible
    refine ⟨tables_read_back legible, fun others othersLegible same => ?_⟩
    rw [← tables_read_back legible, same, tables_read_back othersLegible]
  · intro texts table known column declared
    exact (Schema.column_settled known declared).solid

def markedTables : List Table :=
  [⟨"entity x \x7b \x7b", [⟨"a:", ": b"⟩, ⟨"\x7d", ""⟩, ⟨"\"entity\"", "@enduml "⟩]⟩, ⟨"@enduml", []⟩]

theorem marked_tables_read_back :
    (∀ table ∈ markedTables, Legible table) ∧
    linesOf (schemaMarkup markedTables) =
      ["@startuml", "", "skinparam linetype ortho", "!pragma teoz true", "",
        "entity entity x \x7b \x7b \x7b", "\t+ a:: : b", "\t+ \x7d: ", "\t+ \"entity\": @enduml ",
        "\x7d", "", "entity @enduml \x7b", "\x7d", "@enduml"] ∧
    readTables (schemaMarkup markedTables) = markedTables := by
  have legible : ∀ table ∈ markedTables, Legible table := by decide +kernel
  exact ⟨legible, by decide +kernel, (schema_markup_determines_tables.1 markedTables legible).1⟩

end SourceDiagram.Diagram
