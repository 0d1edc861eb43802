import SourceDiagram.Proofs.Schema.Clauses
import SourceDiagram.Proofs.Schema.Scan
import SourceDiagram.Proofs.Schema.Session

set_option autoImplicit false

namespace SourceDiagram.Schema

open SourceDiagram.Model
open SourceDiagram.Text

structure Description where
  schema : Option (List Char)
  table : List Char
  items : List Item

namespace Description

def name (description : Description) : String :=
  match description.schema with
  | some schema => String.ofList (schema ++ '.' :: description.table)
  | none => String.ofList description.table

def columns (description : Description) : List Column :=
  description.items.filterMap Item.column?

end Description

inductive BodyText : List Item → List Char → Prop where
  | last {item : Item} {before text after : List Char} :
      Blank before → ItemText item text → Blank after →
      BodyText [item] (before ++ (text ++ after))
  | more {item : Item} {items : List Item} {before text after rest : List Char} :
      Blank before → ItemText item text → Blank after → BodyText items rest →
      BodyText (item :: items) (before ++ (text ++ after) ++ ',' :: rest)

inductive StatementText : Description → List Char → Prop where
  | intro {description : Description} {head body gap : List Char} :
      Head description.schema description.table head → BodyText description.items body →
      Blank gap → StatementText description (head ++ (body ++ ')' :: (gap ++ [';'])))

def Separates (text : List Char) : Prop :=
  ∀ before word after, text = before ++ (word ++ after) → ¬ Spells "create" word

inductive SchemaText : List Description → List Char → Prop where
  | last {separator : List Char} : Separates separator → SchemaText [] separator
  | more {description : Description} {later : List Description} {separator text rest : List Char} :
      Separates separator → StatementText description text → SchemaText later rest →
      SchemaText (description :: later) (separator ++ (text ++ rest))

-- A table as a description tells it: a column that is told again keeps its place and takes the
-- later specification.
structure Describes (description : Description) (table : Table) : Prop where
  name : table.name = description.name
  columns : SumsUp Column.name description.columns table.columns

theorem body_splits {items : List Item} {body : List Char} (written : BodyText items body) :
    (splitClauses body).map readColumn? = items.map Item.column? := by
  rw [splitClauses]
  induction written with
  | @last item before text after front written back =>
    have level := balanced_append (balanced_blank front)
      (balanced_append (item_balanced written) (balanced_blank back))
    have split := clauses_append level []
    rw [List.append_nil] at split
    rw [split]
    simp [clausesFrom, item_reads written front back]
  | @more item items before text after rest front written back _ ih =>
    have level := balanced_append (balanced_blank front)
      (balanced_append (item_balanced written) (balanced_blank back))
    rw [clauses_append level, clauses_comma, List.modifyHead_cons, List.map_cons, List.map_cons,
      List.append_nil, item_reads written front back, ih]

theorem body_columns {items : List Item} {body : List Char} (written : BodyText items body) :
    readColumns body = items.filterMap Item.column? := by
  have same := congrArg (List.filterMap id) (body_splits written)
  simpa [readColumns, List.filterMap_map] using same

theorem closes_behind {front back : List Char} (open_ : ')' ∉ front) (closes : Closes (front ++ back)) :
    Closes back := by
  induction front with
  | nil => exact closes
  | cons c front ih =>
    obtain ⟨before, gap, after, blank, split⟩ := closes
    rw [List.mem_cons, not_or] at open_
    cases before with
    | nil => exact absurd (List.cons.inj split).1.symm open_.1
    | cons d before => exact ih open_.2 ⟨before, gap, after, blank, (List.cons.inj split).2⟩

theorem blank_open {text : List Char} (blank : Blank text) : ')' ∉ text := by
  intro member
  exact blank_unmarked (blank ')' member) (by simp)

-- What closes in a text and blanks behind it closes in the text, unless a semicolon follows.
theorem closes_tail {tail after rest : List Char} (back : Blank after)
    (mark : ∀ c ∈ rest.head?, isBlank c = false ∧ c ≠ ';')
    (closes : Closes (tail ++ (after ++ rest))) : Closes tail ∨ Closes rest := by
  induction tail with
  | nil => exact Or.inr (closes_behind (blank_open back) closes)
  | cons c tail ih =>
    obtain ⟨before, gap, end_, blank, split⟩ := closes
    cases before with
    | cons d before =>
      refine (ih ⟨before, gap, end_, blank, (List.cons.inj split).2⟩).imp_left ?_
      exact closes_cons
    | nil =>
      obtain ⟨rfl, start⟩ := List.cons.inj split
      rcases List.append_eq_append_iff.mp start with ⟨more, front, behind⟩ | ⟨more, front, behind⟩
      · -- The white space goes beyond the tail, and so up to the end of the blanks.
        have solid : Solid rest := fun c first => (mark c first).1
        have semicolon : Solid (';' :: end_) := solid_cons end_ (by decide)
        have blankMore : Blank more := by
          intro c member
          exact blank c (by rw [front]; exact List.mem_append_right _ member)
        have same : rest = ';' :: end_ := by
          rw [← after_blanks_append back solid, behind, after_blanks_append blankMore semicolon]
        exact absurd rfl (mark ';' (by rw [same]; rfl)).2
      · cases more with
        | nil =>
          have semicolon : after ++ rest = ';' :: end_ := by simpa using behind.symm
          cases after with
          | nil => exact absurd rfl (mark ';' (by rw [← List.nil_append rest, semicolon]; rfl)).2
          | cons c after =>
            obtain ⟨rfl, -⟩ := List.cons.inj semicolon
            exact absurd (back ';' List.mem_cons_self) (by decide)
        | cons c more =>
          obtain ⟨rfl, -⟩ := List.cons.inj behind
          exact Or.inl ⟨[], gap, more, blank, by rw [front]; rfl⟩

theorem item_unclosed {item : Item} {text before after : List Char} (rest : List Char)
    (written : ItemText item text) (front : Blank before) (back : Blank after)
    (mark : ∀ c ∈ rest.head?, isBlank c = false ∧ c ≠ ';')
    (closes : Closes (before ++ (text ++ after) ++ rest)) : Closes rest := by
  have parted : ∃ word gap tail, text = word ++ (gap ++ tail) ∧ ')' ∉ word ∧ Gap gap ∧ Tail tail := by
    cases written with
    | bare named space tail =>
      exact ⟨_, _, _, rfl, fun member => named.unmarked _ member (by simp), space, tail⟩
    | @quoted name gap spec named space tail =>
      refine ⟨_, _, _, rfl, ?_, space, tail⟩
      simpa using fun member => named.unmarked ')' member (by simp)
    | constraint constraint space tail =>
      exact ⟨_, _, _, rfl, fun member => ((constraint_letters constraint).2 _ member).2 (by simp),
        space, tail⟩
  obtain ⟨word, gap, tail, rfl, open_, space, trailing⟩ := parted
  have later : Closes (tail ++ (after ++ rest)) := by
    apply closes_behind (blank_open space.2)
    apply closes_behind open_
    apply closes_behind (blank_open front)
    simpa using closes
  exact (closes_tail back mark later).resolve_left trailing.unclosed

theorem body_unclosed {items : List Item} {body : List Char} (written : BodyText items body) :
    ¬ Closes body := by
  induction written with
  | last front written back =>
    intro closes
    have none := item_unclosed [] written front back (by simp) (by simpa using closes)
    obtain ⟨before, gap, after, -, split⟩ := none
    cases before <;> cases split
  | @more item items before text after rest front written back _ ih =>
    intro closes
    have comma : ∀ c ∈ (',' :: rest).head?, isBlank c = false ∧ c ≠ ';' := by
      rintro c ⟨⟩
      decide
    have behind := item_unclosed _ written front back comma closes
    exact ih (closes_behind (show ')' ∉ [','] by decide) behind)

theorem separates_tail {c : Char} {text : List Char} (separates : Separates (c :: text)) :
    Separates text := by
  intro before word after split
  exact separates (c :: before) word after (by rw [split]; rfl)

theorem create_letters : "create".toList = ['c', 'r', 'e', 'a', 't', 'e'] := by decide

theorem word_goes_on {separator rest : List Char} {read : Statement × List Char}
    (separates : Separates separator) (found : readStatement? (separator ++ rest) = some read) :
    ∃ c more, rest.head? = some c ∧ Spells "create" (separator ++ c :: more) := by
  obtain ⟨_, opened, -⟩ := Option.bind_eq_some_iff.mp found
  obtain ⟨_, create, -⟩ := Option.bind_eq_some_iff.mp opened
  obtain ⟨word, _, spelled, -, split, -⟩ := (after_word_iff (by decide)).mp create
  rcases List.append_eq_append_iff.mp split with ⟨more, front, behind⟩ | ⟨more, front, -⟩
  · cases more with
    | nil => exact absurd spelled (separates [] word [] (by simpa using front.symm))
    | cons c more => exact ⟨c, more, by rw [behind]; rfl, front ▸ spelled⟩
  · exact absurd spelled (separates [] word more front)

theorem separator_missing {separator rest : List Char} (separates : Separates separator)
    (present : separator ≠ []) (start : ∀ c ∈ rest.head?, foldCase c = 'c') :
    readStatement? (separator ++ rest) = none := by
  cases found : readStatement? (separator ++ rest) with
  | none => rfl
  | some read =>
    -- The text behind the separator begins like the word itself, which has that letter but once.
    obtain ⟨c, more, behind, spelled⟩ := word_goes_on separates found
    have first := start c behind
    cases separator with
    | nil => exact absurd rfl present
    | cons d separator =>
      have letters := spelled.trans create_letters
      rw [List.cons_append, List.map_cons, List.map_append, List.map_cons, first,
        List.cons.injEq] at letters
      have later : 'c' ∈ ['r', 'e', 'a', 't', 'e'] := by
        rw [← letters.2]
        exact List.mem_append_right _ List.mem_cons_self
      exact absurd later (by decide)

theorem separator_skipped {separator : List Char} (rest : List Char) (separates : Separates separator)
    (start : ∀ c ∈ rest.head?, foldCase c = 'c') :
    statements (separator ++ rest) = statements rest := by
  induction separator with
  | nil => rfl
  | cons c separator ih =>
    have missing := separator_missing separates (by simp) start
    rw [List.cons_append] at missing ⊢
    rw [statements_missing missing]
    exact ih (separates_tail separates)

theorem head_start {schema : Option (List Char)} {table head : List Char}
    (written : Head schema table head) : ∃ c text, head = c :: text ∧ foldCase c = 'c' := by
  obtain ⟨spelled, -, -, -, -, -, -⟩ := written
  rename_i create _ _ _ _ _ _
  cases create with
  | nil => exact absurd rfl (spells_nonempty (show PlainWord "create" by decide) spelled)
  | cons c create => exact ⟨c, _, rfl, (List.cons.inj (spelled.trans create_letters)).1⟩

theorem statement_start {description : Description} {text : List Char}
    (written : StatementText description text) (rest : List Char) :
    ∀ c ∈ (text ++ rest).head?, foldCase c = 'c' := by
  cases written with
  | intro head =>
    obtain ⟨c, text, rfl, folded⟩ := head_start head
    rintro d ⟨⟩
    exact folded

theorem statement_reads {description : Description} {text : List Char}
    (written : StatementText description text) (rest : List Char) :
    ∃ statement, readStatement? (text ++ rest) = some (statement, rest) ∧
      statement.name = description.name ∧
      readColumns statement.body = description.columns := by
  cases written with
  | intro heads bodies blank =>
    have segment := Segment.intro heads (body_unclosed bodies) blank
    refine ⟨_, read_statement_complete segment rest, ?_, body_columns bodies⟩
    obtain ⟨schema, table, items⟩ := description
    cases schema with
    | none => rfl
    | some schema =>
      have present : schema ≠ [] := by
        cases heads with
        | intro _ _ _ _ _ qualified _ =>
          cases qualified with
          | dotted named => cases named <;> assumption
      have named : (String.ofList schema).isEmpty = false := by
        rw [String.isEmpty_eq_false_iff]
        simpa using present
      simp [Statement.name, Table.qualifiedName, Description.name, named, String.append_assoc]

theorem described (description : Description) (statement : Statement)
    (name : statement.name = description.name)
    (columns : readColumns statement.body = description.columns) :
    Describes description (readTable statement) := by
  have summary := columns_sum_up statement
  rw [columns] at summary
  exact ⟨(read_table_name statement).trans name, summary⟩

theorem schema_tables {descriptions : List Description} {text : List Char}
    (written : SchemaText descriptions text) :
    List.Forall₂ Describes descriptions ((statements text).map readTable) := by
  induction written with
  | @last separator separates =>
    have none := separator_skipped [] separates (by simp)
    rw [List.append_nil] at none
    rw [none, statements]
    exact .nil
  | @more description later separator text rest separates written _ ih =>
    obtain ⟨statement, read, name, columns⟩ := statement_reads written rest
    rw [separator_skipped _ separates (statement_start written rest), statements_found read,
      List.map_cons]
    exact .cons (described description statement name columns) ih

-- A printed schema is read back: each description gives its table, in text order, and a table
-- that is described again keeps its place and takes the later columns.
theorem printed_schema_reads_back (descriptions : List Description) (text : String)
    (written : SchemaText descriptions text.toList) :
    ∃ created, List.Forall₂ Describes descriptions created ∧
      SumsUp Table.name created (interpret [] text).1 ∧
      (interpret [] text).2.1 = !descriptions.isEmpty ∧
      (interpret [] text).2.2 = created.map tableEvent ∧
      ∀ known, interpret known text =
        (created.foldl insertTable known, !(created.foldl insertTable known).isEmpty,
          created.map tableEvent) := by
  have created := schema_tables written
  have summary : SumsUp Table.name (tablesOf text) (interpret [] text).1 :=
    sums_up_upserts (fun _ _ _ => rfl) (tablesOf text)
  refine ⟨tablesOf text, created, summary, ?_, rfl, fun known => rfl⟩
  change (!(interpret [] text).1.isEmpty) = _
  have same : (interpret [] text).1.isEmpty = descriptions.isEmpty := by
    rw [Bool.eq_iff_iff, List.isEmpty_iff, List.isEmpty_iff, summary.isEmpty_iff]
    have lengths : descriptions.length = (tablesOf text).length := created.length_eq
    rw [← List.length_eq_zero_iff, ← List.length_eq_zero_iff, lengths]
  rw [same]

theorem printed_schema_with_nested_comma :
    SchemaText [⟨some ['s'], ['t', ' ', 'u'],
        [.column ['i', 'd'] "N(1, 2)".toList, .column ['x'] "y;".toList, .constraint]⟩]
      "-- a\nCreate table s .\"t u\"( \"id\" N(1, 2),x  y;\n,check (a) )\t;".toList ∧
    (interpret [] "-- a\nCreate table s .\"t u\"( \"id\" N(1, 2),x  y;\n,check (a) )\t;").2.1 =
      true := by
  have written : SchemaText [⟨some ['s'], ['t', ' ', 'u'],
        [.column ['i', 'd'] "N(1, 2)".toList, .column ['x'] "y;".toList, .constraint]⟩]
      "-- a\nCreate table s .\"t u\"( \"id\" N(1, 2),x  y;\n,check (a) )\t;".toList := by
    have short : ∀ text : List Char, text.length < 6 → Separates text := by
      intro text bound before word after split spelled
      have letters := congrArg List.length (spelled.trans create_letters)
      rw [split] at bound
      simp at letters bound
      omega
    have opened : ∀ text : List Char, ';' ∉ text → ¬ Closes text := by
      rintro text none ⟨before, gap, after, -, rfl⟩
      exact none (by simp)
    have unclosed : ∀ text : List Char, ')' ∉ text → ¬ Closes text := by
      rintro text none ⟨before, gap, after, -, rfl⟩
      exact none (by simp)
    have space : Gap [' '] := ⟨by simp, by simp [Blank]; decide⟩
    have spaces : Gap [' ', ' '] := ⟨by simp, by simp [Blank]; decide⟩
    have nothing : Blank [] := by simp [Blank]
    have name : ColumnName ['i', 'd'] := ⟨by simp, by simp; decide, by simp, by decide⟩
    have other : ColumnName ['x'] := ⟨by simp, by simp; decide, by simp, by decide⟩
    have head : Head (some ['s']) ['t', ' ', 'u'] "Create table s .\"t u\"(".toList :=
      .intro (show Spells "create" "Create".toList by decide) space
        (show Spells "table" "table".toList by decide)
        space .absent (.dotted (.word (by simp) (by simp; decide)) space.2 nothing
          (.quoted (by simp) (by decide))) nothing
    have first : ItemText (.column ['i', 'd'] "N(1, 2)".toList) "\"id\" N(1, 2)".toList :=
      .quoted name space ⟨⟨by simp; decide, by simp; decide⟩, rfl, opened _ (by decide)⟩
    have second : ItemText (.column ['x'] "y;".toList) "x  y;".toList :=
      .bare other spaces ⟨⟨by simp; decide, by simp; decide⟩, rfl, unclosed _ (by decide)⟩
    have third : ItemText .constraint "check (a)".toList :=
      .constraint (show isConstraintWord "check".toList = true by decide) space
        ⟨⟨by simp; decide, by simp; decide⟩, rfl, opened _ (by decide)⟩
    have line : Blank ['\n'] := by simp [Blank]; decide
    have tab : Blank ['\t'] := by simp [Blank]; decide
    have body := BodyText.more space.2 first nothing
      (.more nothing second line (.last nothing third space.2))
    have statement : StatementText ⟨some ['s'], ['t', ' ', 'u'],
        [.column ['i', 'd'] "N(1, 2)".toList, .column ['x'] "y;".toList, .constraint]⟩ _ :=
      .intro head body tab
    exact .more (short "-- a\n".toList (by decide)) statement (.last (short [] (by decide)))
  obtain ⟨_, _, _, found, _⟩ := printed_schema_reads_back _ _ written
  exact ⟨written, found⟩

end SourceDiagram.Schema
