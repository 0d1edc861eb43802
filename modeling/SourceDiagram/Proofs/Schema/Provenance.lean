import SourceDiagram.Proofs.Schema.Scan
import SourceDiagram.Proofs.Schema.Splitting

set_option autoImplicit false

namespace SourceDiagram.Schema

open SourceDiagram.Model
open SourceDiagram.Text

def Quotes (text : List Char) : Prop :=
  ∀ c ∈ text, (c == '"') = true

-- A clause as a column and what is left out of it. All parts may be empty, but the name and its
-- quotes are not empty together, and white space comes before a specification.
inductive Reading : List Char → Column → Prop where
  | intro {before opening name closing between spec after : List Char} :
      Blank before → Quotes opening → Quotes closing → Blank between → Blank after →
      opening ++ (name ++ closing) ≠ [] → spec = [] ∨ between ≠ [] →
      Reading
        (before ++ (opening ++ (name ++ (closing ++ (between ++ (spec ++ after))))))
        ⟨String.ofList name, String.ofList spec⟩

structure Settled (column : Column) : Prop where
  solid : ∀ c ∈ column.name.toList, isBlank c = false
  unquoted : column.name.toList.head? ≠ some '"' ∧ column.name.toList.getLast? ≠ some '"'
  free : isConstraintWord column.name.toList = false
  trimmed : Trimmed column.spec.toList

def NamedIn (text name : List Char) : Prop :=
  (name ≠ [] ∧ name <:+: text) ∨
    ∃ schema table, schema ≠ [] ∧ table ≠ [] ∧ schema <:+: text ∧ table <:+: text ∧
      name = schema ++ '.' :: table

theorem gap_and_spec {more : List Char} (spaced : ∀ c ∈ more.head?, isBlank c = true) :
    ∃ between spec after, trim (more.drop 1) = spec ∧ more = between ++ (spec ++ after) ∧
      Blank between ∧ Blank after ∧ (spec = [] ∨ between ≠ []) ∧ Trimmed spec := by
  cases more with
  | nil =>
    refine ⟨[], [], [], rfl, rfl, ?_, ?_, .inl rfl, ?_⟩
    · exact List.forall_mem_nil _
    · exact List.forall_mem_nil _
    · exact ⟨by simp, by simp⟩
  | cons c more =>
    obtain ⟨⟨space, after, blank, back, split⟩, first, last⟩ :=
      trim_both_iff.mp (rfl : trim more = trim more)
    refine ⟨c :: space, _, after, rfl, congrArg (List.cons c) split, ?_, back,
      .inr (List.cons_ne_nil _ _), first, last⟩
    exact List.forall_mem_cons.mpr ⟨spaced c rfl, blank⟩

theorem read_column_sound {clause : List Char} {column : Column}
    (read : readColumn? clause = some column) : Settled column ∧ Reading clause column := by
  obtain ⟨line, lineOf⟩ : ∃ line, trim clause = line := ⟨_, rfl⟩
  obtain ⟨⟨before, after, front, back, rfl⟩, first, -⟩ := trim_both_iff.mp lineOf
  obtain ⟨word, more, kept, left, rfl, solid, spaced⟩ := word_and_gap line
  obtain ⟨between, spec, trailing, specOf, rfl, blank, trailed, parted, trimmed⟩ :=
    gap_and_spec spaced
  obtain ⟨name, nameOf⟩ : ∃ name, trimBoth (· == '"') word = name := ⟨_, rfl⟩
  obtain ⟨⟨opening, closing, opened, closed, rfl⟩, start, stop⟩ := trim_both_iff.mp nameOf
  rw [readColumn?, clauseHead, clauseRest, lineOf, kept, left, nameOf, specOf] at read
  split at read
  · cases read
  · rename_i fits
    cases read
    rw [Bool.or_eq_true, not_or, Bool.not_eq_true, Bool.not_eq_true,
      List.isEmpty_eq_false_iff] at fits
    have present : opening ++ (name ++ closing) ≠ [] := by
      intro none
      rw [none, List.nil_append] at fits first
      obtain ⟨c, cs, same⟩ := List.exists_cons_of_ne_nil fits.1
      rw [same] at first spaced
      exact absurd (first c rfl) (by simp [spaced c rfl])
    constructor
    · constructor
      · rw [String.toList_ofList]
        exact fun c member => solid c (List.mem_append_right _ (List.mem_append_left _ member))
      · rw [String.toList_ofList]
        exact ⟨fun same => by simpa using start _ same, fun same => by simpa using stop _ same⟩
      · rw [String.toList_ofList]
        exact fits.2
      · rw [String.toList_ofList]
        exact trimmed
    · have trails : Blank (trailing ++ after) := List.forall_mem_append.mpr ⟨trailed, back⟩
      simpa only [List.append_assoc] using
        Reading.intro front opened closed blank trails present parted

theorem read_column_complete {clause : List Char} {column : Column} (settled : Settled column)
    (reading : Reading clause column) : readColumn? clause = some column := by
  obtain ⟨solid, unquoted, free, trimmed⟩ := settled
  obtain ⟨front, opened, closed, blank, back, present, parted⟩ := reading
  rename_i before opening name closing between spec after
  rw [String.toList_ofList] at solid unquoted free trimmed
  have quote : isBlank '"' = false := by decide
  have letters : ∀ c ∈ opening ++ (name ++ closing), isBlank c = false := by
    simp only [List.forall_mem_append]
    refine ⟨fun c member => ?_, solid, fun c member => ?_⟩
    · rw [beq_iff_eq.mp (opened c member), quote]
    · rw [beq_iff_eq.mp (closed c member), quote]
  have stripped : trimBoth (· == '"') (opening ++ (name ++ closing)) = name := by
    refine trim_both_append opening closing opened closed ?_ ?_
    · intro c first
      simp only [beq_eq_false_iff_ne]
      rintro rfl
      exact unquoted.1 first
    · intro c last
      simp only [beq_eq_false_iff_ne]
      rintro rfl
      exact unquoted.2 last
  have read := read_clause front present letters blank parted trimmed back
  rw [stripped, free] at read
  simpa using read

theorem read_column_iff {clause : List Char} {column : Column} :
    readColumn? clause = some column ↔ Settled column ∧ Reading clause column :=
  ⟨read_column_sound, fun ⟨settled, reading⟩ => read_column_complete settled reading⟩

theorem clause_within {clauses : List (List Char)} {clause : List Char}
    (member : clause ∈ clauses) :
    clause <:+: joinClauses clauses := by
  induction clauses with
  | nil => cases member
  | cons first later ih =>
    cases later with
    | nil =>
      have alone : joinClauses [first] = first := List.intercalate_singleton
      simp only [List.mem_singleton.mp member, alone, List.infix_refl]
    | cons next others =>
      rw [joined_cons]
      rcases List.mem_cons.mp member with rfl | later
      · exact (List.prefix_append clause _).isInfix
      · exact (ih later).trans ((List.suffix_cons ',' _).trans (List.suffix_append first _)).isInfix

theorem Reading.within {clause : List Char} {column : Column} (reading : Reading clause column) :
    column.name.toList <:+: clause ∧ column.spec.toList <:+: clause := by
  cases reading with
  | @intro before opening name closing between spec after =>
    rw [String.toList_ofList, String.toList_ofList]
    constructor
    · exact ⟨before ++ opening, closing ++ (between ++ (spec ++ after)), by simp⟩
    · exact ⟨before ++ (opening ++ (name ++ (closing ++ between))), after, by simp⟩

theorem Named.within {name text : List Char} (named : Named name text) :
    name ≠ [] ∧ name <:+: text := by
  cases named with
  | word present => exact ⟨present, List.infix_refl name⟩
  | quoted present => exact ⟨present, ['"'], ['"'], rfl⟩

theorem NamedIn.wider {text whole name : List Char} (named : NamedIn text name)
    (within : text <:+: whole) : NamedIn whole name := by
  obtain ⟨present, inside⟩ | ⟨schema, table, some, present, first, second, rfl⟩ := named
  · exact .inl ⟨present, inside.trans within⟩
  · exact .inr ⟨schema, table, some, present, first.trans within, second.trans within, rfl⟩

theorem Qualified.within {schema : Option (List Char)} {table text : List Char} (body : List Char)
    (qualified : Qualified schema table text) :
    NamedIn text (Statement.name ⟨schema, table, body⟩).toList := by
  cases qualified with
  | plain named =>
    refine .inl ?_
    rw [Statement.name, Option.map_none, Table.qualifiedName, String.toList_ofList]
    exact named.within
  | @dotted schema table first second before after firstNamed _ _ secondNamed =>
    obtain ⟨firstPresent, firstWithin⟩ := firstNamed.within
    obtain ⟨secondPresent, secondWithin⟩ := secondNamed.within
    have some : ¬ (String.ofList schema).isEmpty = true := by simpa using firstPresent
    refine .inr ⟨schema, table, firstPresent, secondPresent, ?_, ?_, ?_⟩
    · exact firstWithin.trans (List.prefix_append first _).isInfix
    · exact secondWithin.trans ⟨first ++ (before ++ '.' :: after), [], by simp⟩
    · rw [Statement.name, Option.map_some, Table.qualifiedName, if_neg some]
      simp

theorem Segment.within {statement : Statement} {segment : List Char}
    (written : Segment statement segment) :
    NamedIn segment statement.name.toList ∧ statement.body <:+: segment := by
  cases written with
  | @intro schema table head body gap heads =>
    constructor
    · have inside : head <:+: head ++ (body ++ ')' :: (gap ++ [';'])) :=
        (List.prefix_append head _).isInfix
      cases heads with
      | @intro create noun firstGap secondGap condition name between _ _ _ _ _ qualified =>
        refine (qualified.within body).wider (List.IsInfix.trans ?_ inside)
        exact ⟨create ++ (firstGap ++ (noun ++ (secondGap ++ condition))), between ++ ['('],
          by simp⟩
    · exact ⟨head, ')' :: (gap ++ [';']), List.append_assoc _ _ _⟩

theorem Scans.within {text : List Char} {pieces : List Piece} (scans : Scans text pieces) :
    ∀ piece ∈ pieces, Segment piece.statement piece.segment ∧ piece.segment <:+: text := by
  induction scans with
  | done => exact List.forall_mem_nil _
  | @found piece rest later written _ _ ih =>
    refine List.forall_mem_cons.mpr ⟨⟨written, piece.gap, rest, List.append_assoc _ _ _⟩, ?_⟩
    intro other member
    obtain ⟨written, within⟩ := ih other member
    refine ⟨written, within.trans ?_⟩
    exact ((List.suffix_append piece.segment rest).trans (List.suffix_append piece.gap _)).isInfix

theorem statement_within {text : List Char} {statement : Statement}
    (member : statement ∈ statements text) :
    NamedIn text statement.name.toList ∧ statement.body <:+: text := by
  obtain ⟨pieces, scans, same⟩ := statements_scan text
  rw [← same] at member
  obtain ⟨piece, present, rfl⟩ := List.mem_map.mp member
  obtain ⟨written, within⟩ := scans.within piece present
  obtain ⟨named, body⟩ := written.within
  exact ⟨named.wider within, body.trans within⟩

theorem column_within {statement : Statement} {column : Column}
    (known : column ∈ (readTable statement).columns) :
    Settled column ∧ ∃ clause ∈ splitClauses statement.body, Reading clause column ∧
      ∀ other, Settled other → Reading clause other → other = column := by
  obtain ⟨before, behind, columns, -⟩ := (columns_sum_up statement).lastSeen column known
  have read : column ∈ readColumns statement.body := by
    rw [columns]
    exact List.mem_append_right _ List.mem_cons_self
  obtain ⟨clause, member, read⟩ := List.mem_filterMap.mp read
  obtain ⟨settled, reading⟩ := read_column_iff.mp read
  refine ⟨settled, clause, member, reading, ?_⟩
  intro other otherSettled otherReading
  have again := read_column_iff.mpr ⟨otherSettled, otherReading⟩
  exact Option.some.inj (again.symm.trans read)

theorem column_settled {texts : List String} {table : Table} (known : table ∈ after texts)
    {column : Column} (declared : column ∈ table.columns) : Settled column := by
  obtain ⟨_, statement, _, -, rfl, -⟩ := table_from_last known
  exact (column_within declared).1

-- Whatever texts are read in turn, each table is named by one or two pieces of one of them, which
-- holds the body of the last statement with that name. Each of its columns is what a clause of this
-- body is without the white space and the quotes around the name and the specification.
theorem tables_hold_pieces_of_texts (texts : List String) {table : Table}
    (known : table ∈ after texts) :
    ∃ earlier statement later, history texts = earlier ++ statement :: later ∧
      table.name = statement.name ∧ (∀ other ∈ later, other.name ≠ table.name) ∧
      (∃ text ∈ texts, NamedIn text.toList table.name.toList ∧ statement.body <:+: text.toList) ∧
      ∀ column ∈ table.columns,
        column.name.toList <:+: statement.body ∧ column.spec.toList <:+: statement.body ∧
        Settled column ∧ ∃ clause ∈ splitClauses statement.body, Reading clause column ∧
          ∀ other, Settled other → Reading clause other → other = column := by
  obtain ⟨earlier, statement, later, split, rfl, latest⟩ := table_from_last known
  have present : statement ∈ history texts := by
    rw [split]
    exact List.mem_append_right _ List.mem_cons_self
  obtain ⟨text, member, inside⟩ := List.mem_flatMap.mp present
  have named := read_table_name statement
  refine ⟨earlier, statement, later, split, named, latest, ⟨text, member, ?_⟩, ?_⟩
  · rw [named]
    exact statement_within inside
  · intro column known
    obtain ⟨settled, clause, member, reading, unique⟩ := column_within known
    have within := clause_within member
    rw [(split_decomposes statement.body).joined] at within
    obtain ⟨name, spec⟩ := reading.within
    exact ⟨name.trans within, spec.trans within, settled, clause, member, reading, unique⟩

def strayTexts : List String :=
  [") (; create table \"x y\" . t (\"a\"  B (1, 2 ) ,, \"\" ,c\n,Check x) ;)", "create table t(("]

theorem stray_texts_hold_table :
    ⟨"x y.t", [⟨"a", "B (1, 2 )"⟩, ⟨"", ""⟩, ⟨"c", ""⟩]⟩ ∈ after strayTexts ∧
    (∃ text ∈ strayTexts, NamedIn text.toList "x y.t".toList) ∧
    ∃ statement ∈ history strayTexts, "B (1, 2 )".toList <:+: statement.body ∧
      ∃ clause ∈ splitClauses statement.body, Reading clause ⟨"a", "B (1, 2 )"⟩ := by
  have known : ⟨"x y.t", [⟨"a", "B (1, 2 )"⟩, ⟨"", ""⟩, ⟨"c", ""⟩]⟩ ∈ after strayTexts := by
    decide +kernel
  obtain ⟨earlier, statement, later, split, -, -, ⟨text, member, named, -⟩, columns⟩ :=
    tables_hold_pieces_of_texts strayTexts known
  obtain ⟨-, spec, -, clause, inside, reading, -⟩ := columns _ List.mem_cons_self
  refine ⟨known, ⟨text, member, named⟩, statement, ?_, spec, clause, inside, reading⟩
  rw [split]
  exact List.mem_append_right _ List.mem_cons_self

end SourceDiagram.Schema
