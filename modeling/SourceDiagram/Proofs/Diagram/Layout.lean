import Mathlib.Algebra.GroupWithZero.Nat
import SourceDiagram.Proofs.Build
import SourceDiagram.Proofs.Schema.Provenance

set_option autoImplicit false

namespace SourceDiagram.Diagram

open SourceDiagram.Model

def breaksIn (text : String) : Nat :=
  text.toList.count '\n'

def breaks (texts : List String) : Nat :=
  (texts.map breaksIn).sum

@[simp] theorem breaks_in_append (front back : String) :
    breaksIn (front ++ back) = breaksIn front + breaksIn back := by
  simp [breaksIn]

@[simp] theorem breaks_nil : breaks [] = 0 := rfl

@[simp] theorem breaks_cons (text : String) (texts : List String) :
    breaks (text :: texts) = breaksIn text + breaks texts := by
  simp [breaks]

@[simp] theorem breaks_append (front back : List String) :
    breaks (front ++ back) = breaks front + breaks back := by
  simp [breaks]

theorem breaks_in_empty {text : String} (empty : text.isEmpty = true) : breaksIn text = 0 := by
  rw [String.isEmpty_iff.mp empty]
  rfl

theorem breaks_in_solid {text : String} (solid : ∀ c ∈ text.toList, Text.isBlank c = false) :
    breaksIn text = 0 := by
  rw [breaksIn, List.count_eq_zero]
  intro member
  exact absurd (solid '\n' member) (by decide)

theorem breaks_eq_zero_iff (texts : List String) :
    breaks texts = 0 ↔ ∀ text ∈ texts, '\n' ∉ text.toList := by
  simp [breaks, breaksIn, List.sum_eq_zero_iff_forall_eq_nat, List.count_eq_zero]

theorem lines_unbroken_iff {lines expected : Nat} {texts : List String}
    (count : lines = expected + breaks texts) :
    lines = expected ↔ ∀ text ∈ texts, '\n' ∉ text.toList := by
  rw [← breaks_eq_zero_iff]
  omega

theorem breaks_flat_map {α : Type} {drawn texts : α → List String} {items : List α}
    (each : ∀ item ∈ items, breaks (drawn item) = breaks (texts item)) :
    breaks (items.flatMap drawn) = breaks (items.flatMap texts) := by
  induction items with
  | nil => rfl
  | cons item items ih =>
    obtain ⟨first, later⟩ := List.forall_mem_cons.mp each
    rw [List.flatMap_cons, List.flatMap_cons, breaks_append, breaks_append, first, ih later]

theorem breaks_map {α : Type} {line : α → String} {texts : α → List String} {items : List α}
    (each : ∀ item ∈ items, breaksIn (line item) = breaks (texts item)) :
    breaks (items.map line) = breaks (items.flatMap texts) := by
  rw [List.map_eq_flatMap]
  exact breaks_flat_map fun item member => by simp [each item member]

theorem breaks_intercalate (mark : String) (texts : List String) :
    breaksIn (mark.intercalate texts) = (texts.length - 1) * breaksIn mark + breaks texts := by
  induction texts with
  | nil => simp [breaksIn]
  | cons text texts ih =>
    cases texts with
    | nil => simp
    | cons next texts =>
      rw [String.intercalate_cons_cons, breaks_in_append, breaks_in_append, ih, breaks_cons text]
      simp only [List.length_cons, Nat.add_sub_cancel, Nat.succ_mul]
      omega

theorem split_length (cs : List Char) : (cs.splitOn '\n').length = cs.count '\n' + 1 := by
  rw [List.splitOn]
  induction cs with
  | nil => simp
  | cons c cs ih =>
    rw [List.splitOnP_cons_eq_if_modifyHead]
    by_cases broken : c = '\n'
    · simp [broken, ih]
    · simp [broken, ih]

theorem lines_count {lines : List String} (present : lines ≠ []) :
    (linesOf (text lines)).length = lines.length + breaks lines := by
  have breaking : breaksIn "\n" = 1 := by decide
  have positive := List.length_pos_iff.mpr present
  have split : (linesOf (text lines)).length = breaksIn (text lines) + 1 := by
    rw [linesOf, List.length_map, split_length, breaksIn]
  rw [split, text, breaks_intercalate, breaking]
  omega

-- What is drawn of a table and may hold white space; the name of a column ends where it begins.
def tableTexts (table : Table) : List String :=
  table.name :: table.columns.map Column.spec

def NamesSolid (table : Table) : Prop :=
  ∀ column ∈ table.columns, breaksIn column.name = 0

theorem column_breaks {column : Column} (solid : breaksIn column.name = 0) :
    breaksIn (columnLine column) = breaksIn column.spec := by
  have front : breaksIn "\t+ " = 0 := by decide
  have mark : breaksIn ": " = 0 := by decide
  simp [columnLine, front, mark, solid]

theorem header_breaks {sort : String} (plain : breaksIn sort = 0) (name : String) :
    breaksIn (header sort name) = breaksIn name := by
  have space : breaksIn " " = 0 := by decide
  have brace : breaksIn " \x7b" = 0 := by decide
  simp [header, plain, space, brace]

theorem footer_breaks : breaksIn footer = 0 := by decide

theorem table_breaks {table : Table} (solid : NamesSolid table) :
    breaks (tableLines table) = breaks (tableTexts table) := by
  have plain : breaksIn "entity" = 0 := by decide
  have empty : breaksIn "" = 0 := by decide
  have columns : breaks (table.columns.map columnLine) = breaks (table.columns.map Column.spec) := by
    rw [List.map_eq_flatMap (f := Column.spec)]
    exact breaks_map fun _ member => by simpa using column_breaks (solid _ member)
  simp [tableLines, tableTexts, header_breaks plain, footer_breaks, empty, columns]

theorem table_lines_length (table : Table) :
    (tableLines table).length = 3 + table.columns.length := by
  simp [tableLines]
  omega

def schemaLineCount (tables : List Table) : Nat :=
  4 + (tables.map fun table => 3 + table.columns.length).sum + 1

theorem schema_lines_length (tables : List Table) :
    (schemaLines tables).length = schemaLineCount tables := by
  simp [schemaLines, schemaLineCount, directives, List.length_flatMap, table_lines_length]
  omega

def EntityBlock (table : Table) (block : List String) : Prop :=
  ∃ members, block = "" :: header "entity" table.name :: (members ++ [footer]) ∧
    List.Forall₂ (fun column line => line = "\t+ " ++ column.name ++ ": " ++ column.spec)
      table.columns members

theorem table_lines_block (table : Table) : EntityBlock table (tableLines table) := by
  refine ⟨table.columns.map columnLine, by simp [tableLines], ?_⟩
  exact List.forall₂_map_right_iff.mpr (List.forall₂_same.mpr fun _ _ => rfl)

theorem names_solid {texts : List String} {table : Table} (known : table ∈ Schema.after texts) :
    NamesSolid table :=
  fun _ declared => breaks_in_solid (Schema.column_settled known declared).solid

def attributeTexts (member : Attribute) : List String :=
  [member.name, member.declaredType]

def parameterTexts (parameter : Parameter) : List String :=
  [parameter.name, parameter.declaredType]

def methodTexts (method : Method) : List String :=
  method.name :: (method.parameters.flatMap parameterTexts ++ [method.returnType])

def classTexts (record : ClassRecord) : List String :=
  record.name :: (record.attributes.flatMap attributeTexts ++
    record.methods.flatMap methodTexts)

def edgeTexts (edge : Edge) : List String :=
  [edge.source, edge.target]

def relatedTexts (records : List ClassRecord) : List String :=
  records.flatMap classTexts ++ (relations records).flatMap edgeTexts

theorem breaks_of_typed (line type : String) :
    breaksIn (if type.isEmpty then line else line ++ ": " ++ type) =
      breaksIn line + breaksIn type := by
  by_cases untyped : type.isEmpty = true
  · rw [if_pos untyped, breaks_in_empty untyped, Nat.add_zero]
  · have mark : breaksIn ": " = 0 := by decide
    rw [if_neg untyped, breaks_in_append, breaks_in_append, mark, Nat.add_zero]

theorem marker_breaks (visibility : Visibility) : breaksIn visibility.marker = 0 := by
  cases visibility <;> decide

theorem attribute_breaks (member : Attribute) :
    breaksIn (attributeLine member) = breaks (attributeTexts member) := by
  have front : breaksIn "  " = 0 := by decide
  have space : breaksIn " " = 0 := by decide
  rw [attributeLine]
  simp only [breaks_of_typed]
  simp [attributeTexts, front, space, marker_breaks]

theorem signature_breaks (method : Method) :
    breaksIn method.signature = breaks (methodTexts method) := by
  have comma : breaksIn ", " = 0 := by decide
  have opening : breaksIn "(" = 0 := by decide
  have closing : breaksIn ")" = 0 := by decide
  have parameters : breaks (method.parameters.map Parameter.text) =
      breaks (method.parameters.flatMap parameterTexts) :=
    breaks_map fun parameter _ => by
      rw [Parameter.text, breaks_of_typed]
      rfl
  rw [Method.signature]
  simp only [breaks_of_typed]
  simp [breaks_intercalate, methodTexts, comma, opening, closing, parameters, Nat.add_assoc]

theorem method_breaks (method : Method) :
    breaksIn (methodLine method) = breaks (methodTexts method) := by
  have front : breaksIn "  " = 0 := by decide
  have space : breaksIn " " = 0 := by decide
  rw [methodLine]
  cases method.kind with
  | instanceMethod => simp [MethodKind.stereotype?, front, space, marker_breaks, signature_breaks]
  | classMethod =>
    have label : breaksIn "«class»" = 0 := by decide
    simp [MethodKind.stereotype?, front, space, marker_breaks, signature_breaks, label]
  | staticMethod =>
    have label : breaksIn "«static»" = 0 := by decide
    simp [MethodKind.stereotype?, front, space, marker_breaks, signature_breaks, label]

theorem class_breaks (record : ClassRecord) :
    breaks (classLines record) = breaks (classTexts record) := by
  have plain : breaksIn "class" = 0 := by decide
  have attributes : breaks (record.attributes.map attributeLine) =
      breaks (record.attributes.flatMap attributeTexts) :=
    breaks_map fun member _ => attribute_breaks member
  have methods : breaks (record.methods.map methodLine) =
      breaks (record.methods.flatMap methodTexts) :=
    breaks_map fun method _ => method_breaks method
  simp [classLines, classTexts, header_breaks plain, footer_breaks, attributes, methods]

theorem edge_breaks (edge : Edge) : breaksIn (edgeLine edge) = breaks (edgeTexts edge) := by
  have derives : breaksIn " <|-- " = 0 := by decide
  have holds : breaksIn " *-- " = 0 := by decide
  rw [edgeLine]
  cases edge.kind with
  | inheritance => simp [edgeTexts, derives, Nat.add_comm]
  | composition => simp [edgeTexts, holds]

theorem edge_lines_by_kind (edges : List Edge) :
    edgeLines edges = (edges.filter fun edge => edge.kind = .inheritance).map edgeLine ++
      (edges.filter fun edge => edge.kind = .composition).map edgeLine := by
  simp [edgeLines, EdgeKind.all]

theorem kinds_permuted (edges : List Edge) :
    ((edges.filter fun edge => edge.kind = .inheritance) ++
      edges.filter fun edge => edge.kind = .composition).Perm edges := by
  have composed : ∀ edge : Edge,
      decide (edge.kind = .composition) = !decide (edge.kind = .inheritance) := by
    intro edge
    cases edge.kind <;> rfl
  simp only [composed]
  exact List.filter_append_perm _ edges

theorem edge_lines_permuted (edges : List Edge) : (edgeLines edges).Perm (edges.map edgeLine) := by
  rw [edge_lines_by_kind, ← List.map_append]
  exact (kinds_permuted edges).map edgeLine

theorem edge_lines_breaks (edges : List Edge) :
    breaks (edgeLines edges) = breaks (edges.flatMap edgeTexts) := by
  have same : breaks (edgeLines edges) = breaks (edges.map edgeLine) :=
    ((edge_lines_permuted edges).map breaksIn).sum_nat
  rw [same]
  exact breaks_map fun edge _ => edge_breaks edge

theorem class_lines_length (record : ClassRecord) : (classLines record).length =
    2 + record.attributes.length + record.methods.length := by
  simp [classLines]
  omega

def objectModelLineCount (records : List ClassRecord) (edges : List Edge) : Nat :=
  3 + (records.map fun record => 2 + record.attributes.length + record.methods.length).sum +
    edges.length + 1

theorem object_model_lines_length {records : List ClassRecord} (present : records ≠ [])
    (edges : List Edge) :
    (objectModelLines records edges).length = objectModelLineCount records edges := by
  have links := (edge_lines_permuted edges).length_eq
  rw [List.length_map] at links
  rw [object_model_lines present]
  simp [objectModelLineCount, directives, List.length_flatMap, class_lines_length, links]
  omega

def MemberBlock (record : ClassRecord) (block : List String) : Prop :=
  ∃ attributes methods, block = header "class" record.name :: (attributes ++ methods ++ [footer]) ∧
    List.Forall₂ (fun member line => ∃ type,
      line = "  " ++ member.visibility.marker ++ " " ++ member.name ++ type)
      record.attributes attributes ∧
    List.Forall₂ (fun method line => ∃ label,
      line = "  " ++ method.visibility.marker ++ " " ++ method.signature ++ label)
      record.methods methods

theorem class_lines_members (record : ClassRecord) : MemberBlock record (classLines record) := by
  refine ⟨record.attributes.map attributeLine, record.methods.map methodLine, by simp [classLines],
    ?_, ?_⟩
  · refine List.forall₂_map_right_iff.mpr (List.forall₂_same.mpr fun member _ => ?_)
    rw [attributeLine]
    split
    · exact ⟨"", by simp⟩
    · exact ⟨": " ++ member.declaredType, by simp [String.append_assoc]⟩
  · refine List.forall₂_map_right_iff.mpr (List.forall₂_same.mpr fun method _ => ?_)
    rw [methodLine]
    split
    · rename_i stereotype _
      exact ⟨" " ++ stereotype, by simp [String.append_assoc]⟩
    · exact ⟨"", by simp⟩

section

variable {tables : List Table} {records : List ClassRecord}

theorem schema_breaks (solid : ∀ table ∈ tables, NamesSolid table) :
    breaks (schemaLines tables) = breaks (tables.flatMap tableTexts) := by
  have fixed : breaks ([opening, ""] ++ directives) = 0 := by decide
  have last : breaks [closing] = 0 := by decide
  have blocks : breaks (tables.flatMap tableLines) = breaks (tables.flatMap tableTexts) :=
    breaks_flat_map fun table known => table_breaks (solid table known)
  rw [schemaLines, breaks_append, breaks_append, fixed, last, blocks]
  omega

theorem object_model_breaks (present : records ≠ []) (edges : List Edge) :
    breaks (objectModelLines records edges) =
      breaks (records.flatMap classTexts ++ edges.flatMap edgeTexts) := by
  have fixed : breaks ([opening] ++ directives) = 0 := by decide
  have last : breaks [closing] = 0 := by decide
  have blocks : breaks (records.flatMap classLines) = breaks (records.flatMap classTexts) :=
    breaks_flat_map fun record _ => class_breaks record
  rw [object_model_lines present, breaks_append, breaks_append, breaks_append, fixed, last, blocks,
    edge_lines_breaks, breaks_append]
  omega

theorem lines_of_schema (solid : ∀ table ∈ tables, NamesSolid table)
    (flat : ∀ text ∈ tables.flatMap tableTexts, '\n' ∉ text.toList) :
    linesOf (schemaMarkup tables) = schemaLines tables := by
  rw [← breaks_eq_zero_iff, ← schema_breaks solid, breaks_eq_zero_iff] at flat
  rw [schemaMarkup, lines_of_text (by simp [schemaLines]) flat]

theorem lines_of_object_model (present : records ≠ []) {edges : List Edge}
    (flat : ∀ text ∈ records.flatMap classTexts ++ edges.flatMap edgeTexts, '\n' ∉ text.toList) :
    linesOf (objectModelMarkup records edges) =
      [opening] ++ directives ++ records.flatMap classLines ++ edgeLines edges ++ [closing] := by
  rw [← breaks_eq_zero_iff, ← object_model_breaks present, breaks_eq_zero_iff] at flat
  rw [objectModelMarkup, lines_of_text (by simp [object_model_lines present]) flat,
    object_model_lines present]

theorem schema_diagram_lines (solid : ∀ table ∈ tables, NamesSolid table) :
    (linesOf (schemaMarkup tables)).length =
      schemaLineCount tables + breaks (tables.flatMap tableTexts) ∧
    ((∀ text ∈ tables.flatMap tableTexts, '\n' ∉ text.toList) → ∃ blocks,
      linesOf (schemaMarkup tables) = [opening, ""] ++ directives ++ blocks.flatten ++ [closing] ∧
      List.Forall₂ EntityBlock tables blocks) := by
  have present : schemaLines tables ≠ [] := by simp [schemaLines]
  refine ⟨?_, fun flat => ⟨tables.map tableLines, ?_, ?_⟩⟩
  · rw [schemaMarkup, lines_count present, schema_lines_length, schema_breaks solid]
  · rw [lines_of_schema solid flat, schemaLines, List.flatMap_def]
  · exact List.forall₂_map_right_iff.mpr (List.forall₂_same.mpr fun table _ => table_lines_block table)

theorem object_model_diagram_lines (present : records ≠ []) (edges : List Edge) :
    (linesOf (objectModelMarkup records edges)).length =
      objectModelLineCount records edges +
        breaks (records.flatMap classTexts ++ edges.flatMap edgeTexts) ∧
    ((∀ text ∈ records.flatMap classTexts ++ edges.flatMap edgeTexts, '\n' ∉ text.toList) →
      ∃ blocks links,
        linesOf (objectModelMarkup records edges) =
          [opening] ++ directives ++ blocks.flatten ++ links ++ [closing] ∧
        List.Forall₂ MemberBlock records blocks ∧ links.Perm (edges.map edgeLine)) := by
  have some : objectModelLines records edges ≠ [] := by simp [object_model_lines present]
  refine ⟨?_, fun flat => ⟨records.map classLines, edgeLines edges, ?_, ?_, ?_⟩⟩
  · rw [objectModelMarkup, lines_count some, object_model_lines_length present,
      object_model_breaks present]
  · rw [lines_of_object_model present flat, List.flatMap_def]
  · exact List.forall₂_map_right_iff.mpr
      (List.forall₂_same.mpr fun record _ => class_lines_members record)
  · exact edge_lines_permuted edges

end

-- Each line feed in what is drawn adds a line to a diagram that otherwise has one line for each
-- column, or for each attribute, method and relation. So those lines are all there are exactly when
-- the names of the tables and the specifications of their columns, or the texts of the classes and
-- of the relations between them, hold no line feed, and then they stand in blocks.
theorem members_take_one_line_unless_broken (source : String) :
    (∀ tables, (extract .schema source).result = .ok (.schema tables) →
      ∃ diagram, (build .schema .plantUml source).result = .ok diagram ∧
        (linesOf diagram).length = schemaLineCount tables + breaks (tables.flatMap tableTexts) ∧
        ((linesOf diagram).length = schemaLineCount tables ↔
          ∀ text ∈ tables.flatMap tableTexts, '\n' ∉ text.toList) ∧
        ((∀ text ∈ tables.flatMap tableTexts, '\n' ∉ text.toList) → ∃ blocks,
          linesOf diagram = [opening, ""] ++ directives ++ blocks.flatten ++ [closing] ∧
          List.Forall₂ EntityBlock tables blocks)) ∧
    (∀ records, (extract .objectModel source).result = .ok (.objectModel records) →
      records ≠ [] →
      ∃ diagram, (build .objectModel .plantUml source).result = .ok diagram ∧
        (linesOf diagram).length = objectModelLineCount records (relations records) +
          breaks (relatedTexts records) ∧
        ((linesOf diagram).length = objectModelLineCount records (relations records) ↔
          ∀ text ∈ relatedTexts records, '\n' ∉ text.toList) ∧
        ((∀ text ∈ relatedTexts records, '\n' ∉ text.toList) → ∃ blocks links,
          linesOf diagram = [opening] ++ directives ++ blocks.flatten ++ links ++ [closing] ∧
          List.Forall₂ MemberBlock records blocks ∧
          links.Perm ((relations records).map edgeLine))) := by
  constructor
  · intro tables extracted
    rw [schema_extracted] at extracted
    by_cases none : Schema.after [source] = []
    · rw [if_pos none] at extracted
      cases extracted
    · rw [if_neg none] at extracted
      cases extracted
      have built := schema_built .plantUml source
      rw [if_neg none] at built
      obtain ⟨count, shape⟩ := schema_diagram_lines fun _ known => names_solid known
      exact ⟨_, built, count, lines_unbroken_iff count, shape⟩
  · intro records extracted present
    rw [object_model_extracted] at extracted
    cases extracted
    obtain ⟨count, shape⟩ := object_model_diagram_lines present
      (relations (ObjectModel.after [source]))
    exact ⟨_, object_model_built .plantUml source, count, lines_unbroken_iff count, shape⟩

def ledger : String :=
  "CREATE TABLE ledger (id INT, sum DEC(9, 2));"

def person : String :=
  "class Person(Being):\n    name: str\n    def greet(self, other: Person): pass\n"

theorem lines_of_ledger_and_person :
    ((extract .schema ledger).result =
        .ok (.schema [⟨"ledger", [⟨"id", "INT"⟩, ⟨"sum", "DEC(9, 2)"⟩]⟩]) ∧
      (extract .objectModel person).result =
        .ok (.objectModel [⟨"Person", ["Being"], [⟨"name", "str"⟩],
          [⟨"greet", [⟨"other", "Person"⟩], "", .instanceMethod⟩]⟩])) ∧
    (∃ diagram, (build .schema .plantUml ledger).result = .ok diagram ∧
      (linesOf diagram).length = 4 + (3 + 2) + 1) ∧
    ∃ diagram, (build .objectModel .plantUml person).result = .ok diagram ∧
      (linesOf diagram).length = 3 + (2 + 1 + 1) + 1 + 1 := by
  have tables : (extract .schema ledger).result =
      .ok (.schema [⟨"ledger", [⟨"id", "INT"⟩, ⟨"sum", "DEC(9, 2)"⟩]⟩]) := by
    decide +kernel
  have records : (extract .objectModel person).result =
      .ok (.objectModel [⟨"Person", ["Being"], [⟨"name", "str"⟩],
        [⟨"greet", [⟨"other", "Person"⟩], "", .instanceMethod⟩]⟩]) := by
    rw [object_model_extracted]
    decide +kernel
  obtain ⟨entities, drawn, -, entityLines, -⟩ :=
    (members_take_one_line_unless_broken ledger).1 _ tables
  obtain ⟨classes, shown, -, classLines, -⟩ :=
    (members_take_one_line_unless_broken person).2 _ records (List.cons_ne_nil _ _)
  exact ⟨⟨tables, records⟩, ⟨entities, drawn, entityLines.mpr (by decide)⟩,
    classes, shown, classLines.mpr (by decide)⟩

theorem broken_members_take_more_lines :
    ((build .schema .plantUml "CREATE TABLE t (a DEC(1,\n2));").result.toOption.map fun diagram =>
      (linesOf diagram).drop 5) = some ["entity t \x7b", "\t+ a: DEC(1,", "2)", "\x7d", "@enduml"] ∧
    ((build .objectModel .plantUml "class A:\n x: \"\"\"b\nc\"\"\"\n").result.toOption.map
      fun diagram => (linesOf diagram).drop 3) =
        some ["class A \x7b", "  + x: \"\"\"b", "c\"\"\"", "\x7d", "@enduml"] := by
  decide +kernel

end SourceDiagram.Diagram
