import SourceDiagram.Proofs.Diagram.Agreement
import SourceDiagram.Proofs.ObjectModel.Session
import SourceDiagram.Proofs.Schema.Scan
import SourceDiagram.Proofs.Schema.Session

set_option autoImplicit false

namespace SourceDiagram

open SourceDiagram.Diagram
open SourceDiagram.Json
open SourceDiagram.Model
open SourceDiagram.Syntax

def Barren (source : String) : Prop :=
  ObjectModel.isRejected source = true ∨ ObjectModel.declarations source = []

def declaredNames (source : String) : List String :=
  (ObjectModel.declarations source).filterMap fun definition =>
    (definition.field? .name).map SyntaxTree.text

theorem build_result (kind : InputKind) (format : OutputFormat) (source : String) :
    (build kind format source).result =
      (extract kind source).result.map fun facts => (render format facts).result := by
  rw [build]
  cases (extract kind source).result <;> rfl

theorem schema_extracted (source : String) :
    (extract .schema source).result =
      if Schema.after [source] = [] then .error .noTable
      else .ok (.schema (Schema.after [source])) := by
  have judged : (extract .schema source).result =
      if (!(Schema.interpret [] source).2.1) = true then .error .noTable
      else .ok (.schema (Schema.after [source])) := rfl
  have found : (!(Schema.interpret [] source).2.1) = true ↔ Schema.after [source] = [] := by
    rw [Bool.not_eq_true', ← Bool.not_eq_true, Schema.found_iff, not_not]
    rfl
  rw [judged, if_congr found rfl rfl]

theorem object_model_extracted (source : String) :
    (extract .objectModel source).result = .ok (.objectModel (ObjectModel.after [source])) :=
  rfl

theorem schema_without_table_iff (source : String) :
    Schema.after [source] = [] ↔
      ∀ before after, source.toList = before ++ after → ¬ Schema.Starts after := by
  have whole : Schema.history [source] = Schema.statements source.toList := by
    simp [Schema.history]
  rw [Schema.after_empty_iff, whole, Schema.no_statement_iff]

theorem names_of_declared {definitions : List SyntaxTree} {records : List ClassRecord}
    (declared : List.Forall₂ ObjectModel.Declares definitions records) :
    records.map ClassRecord.name =
      definitions.filterMap fun definition => (definition.field? .name).map SyntaxTree.text := by
  induction declared with
  | nil => rfl
  | cons first later ih => rw [List.map_cons, ih, List.filterMap_cons, first.2]

theorem accepted_classes {source : String} (accepted : ObjectModel.isRejected source = false) :
    ∃ records, List.Forall₂ ObjectModel.Declares (ObjectModel.declarations source) records ∧
      SumsUp ClassRecord.name records (ObjectModel.after [source]) := by
  obtain ⟨records, declared, read⟩ := ObjectModel.accepted_declares accepted
  have run : ObjectModel.after [source] = records.foldl ObjectModel.insertClass [] := read []
  refine ⟨records, declared, ?_⟩
  rw [run]
  exact sums_up_upserts (fun _ _ _ => rfl) records

theorem class_names {source : String} (accepted : ObjectModel.isRejected source = false) :
    (ObjectModel.after [source]).map ClassRecord.name = (declaredNames source).eraseDups := by
  obtain ⟨records, declared, summary⟩ := accepted_classes accepted
  rw [summary.firstSeen, names_of_declared declared]
  rfl

theorem classes_empty_iff (source : String) : ObjectModel.after [source] = [] ↔ Barren source := by
  cases rejected : ObjectModel.isRejected source with
  | true =>
    have unread : ObjectModel.after [source] = [] :=
      congrArg Prod.fst (ObjectModel.rejected_unread rejected [])
    simp [Barren, rejected, unread]
  | false =>
    obtain ⟨records, declared, summary⟩ := accepted_classes rejected
    have none : records = [] ↔ ObjectModel.declarations source = [] := by
      rw [← List.length_eq_zero_iff, ← declared.length_eq, List.length_eq_zero_iff]
    simp [Barren, rejected, summary.isEmpty_iff, none]

def ShowsNothing : OutputFormat → String → Prop
  | .plantUml, diagram => diagram = placeholder
  | .json, diagram => ∃ document, Denotes diagram document ∧
      itemsAt? "types" document = some [] ∧ itemsAt? "edges" document = some []

-- Whether a diagram in a format has one block for each of some names, in their order, and no other
-- block. A type may hold line breaks, so that a line of the text is no measure of blocks.
def ShowsClasses (names : List String) : OutputFormat → String → Prop
  | .plantUml, diagram => ∃ blocks links,
      diagram = text ([opening] ++ directives ++ blocks.flatten ++ links ++ [closing]) ∧
      List.Forall₂ ClassBlock names blocks ∧ ∀ link ∈ links, ∃ edge, link = edgeLine edge
  | .json, diagram => ∃ document types, Denotes diagram document ∧
      itemsAt? "types" document = some types ∧ types.map (textAt? "name") = names.map some

theorem object_model_built (format : OutputFormat) (source : String) :
    (build .objectModel format source).result =
      .ok (renderClasses format (ObjectModel.after [source])
        (relations (ObjectModel.after [source]))).result := by
  rw [build_result, object_model_extracted]
  rfl

theorem shows_nothing_iff (format : OutputFormat) (records : List ClassRecord) :
    ShowsNothing format (renderClasses format records (relations records)).result ↔
      records = [] := by
  cases format with
  | plantUml => exact markup_placeholder_iff records (relations records)
  | json =>
    constructor
    · rintro ⟨document, denotes, types, -⟩
      have same := denotes.same (object_model_text_denotes records (relations records)) rfl
      rwa [same, types_empty_iff] at types
    · rintro rfl
      exact ⟨_, object_model_text_denotes [] [], rfl, rfl⟩

theorem shows_classes (format : OutputFormat) {records : List ClassRecord} (present : records ≠ []) :
    ShowsClasses (records.map ClassRecord.name) format
      (renderClasses format records (relations records)).result := by
  cases format with
  | plantUml =>
    refine ⟨records.map classLines, edgeLines (relations records), ?_, ?_, ?_⟩
    · rw [← List.flatMap_def, ← object_model_lines present]
      rfl
    · refine List.forall₂_map_left_iff.mpr (List.forall₂_map_right_iff.mpr ?_)
      exact List.forall₂_same.mpr fun record _ => class_lines_block record
    · intro link member
      obtain ⟨edge, -, drawn⟩ := mem_edge_lines member
      exact ⟨edge, drawn⟩
  | json =>
    refine ⟨_, records.map classView, object_model_text_denotes records (relations records), rfl, ?_⟩
    rw [List.map_map, List.map_map]
    rfl

theorem schema_built (format : OutputFormat) (source : String) :
    (build .schema format source).result =
      if Schema.after [source] = [] then .error .noTable
      else .ok (renderTables format (Schema.after [source])).result := by
  rw [build_result, schema_extracted]
  split
  · rfl
  · rfl

theorem fruitful_names {source : String} (fruitful : ¬ Barren source) :
    (ObjectModel.after [source]).map ClassRecord.name = (declaredNames source).eraseDups := by
  have accepted : ObjectModel.isRejected source = false := by
    rw [← Bool.not_eq_true]
    exact fun rejected => fruitful (.inl rejected)
  exact class_names accepted

theorem headers_told {source : String} (fruitful : ¬ Barren source)
    (unbroken : ∀ record ∈ ObjectModel.after [source], Unbroken record) (name : String) :
    (linesOf (objectModelMarkup (ObjectModel.after [source])
        (relations (ObjectModel.after [source])))).count (header "class" name) =
      if name ∈ declaredNames source then 1 else 0 := by
  have present : ObjectModel.after [source] ≠ [] := fun none =>
    fruitful ((classes_empty_iff source).mp none)
  rw [headers_of_markup unbroken present, fruitful_names fruitful]
  have once := (nodup_erase_dups (declaredNames source)).count (a := name)
  rw [once]
  simp only [List.mem_eraseDups]

-- A schema without a statement is a fault, and every other source has a diagram. That of a module
-- shows nothing where the module is rejected or declares no class, and otherwise a block for each
-- name that it declares. As long as what is drawn breaks no line, the lines of the markup that look
-- like headers are those of the blocks. Building is extracting and then drawing, with the relations
-- that the extracted classes have.
theorem builds_show_what_is_declared :
    (∀ format source,
      ((build .schema format source).result = .error .noTable ↔
        ∀ before after, source.toList = before ++ after → ¬ Schema.Starts after) ∧
      ((build .schema format source).result = .error .noTable ∨
        ∃ diagram, (build .schema format source).result = .ok diagram)) ∧
    (∀ format source, ∃ diagram, (build .objectModel format source).result = .ok diagram ∧
      (ShowsNothing format diagram ↔ Barren source) ∧
      (¬ Barren source → ShowsClasses (declaredNames source).eraseDups format diagram)) ∧
    (∀ source records, ¬ Barren source →
      (extract .objectModel source).result = .ok (.objectModel records) →
      (∀ record ∈ records, Unbroken record) →
      ∃ diagram, (build .objectModel .plantUml source).result = .ok diagram ∧
        ∀ name, (linesOf diagram).count (header "class" name) =
          if name ∈ declaredNames source then 1 else 0) ∧
    (∀ kind format source, (build kind format source).result =
      (extract kind source).result.map fun facts => (render format facts).result) ∧
    ∀ format records, (render format (.objectModel records)).result =
      (renderClasses format records (relations records)).result := by
  refine ⟨?_, ?_, ?_, build_result, fun _ _ => rfl⟩
  · intro format source
    rw [schema_built, ← schema_without_table_iff]
    by_cases none : Schema.after [source] = []
    · simp [none]
    · simp [none]
  · intro format source
    refine ⟨_, object_model_built format source, ?_, fun fruitful => ?_⟩
    · rw [shows_nothing_iff, classes_empty_iff]
    · rw [← fruitful_names fruitful]
      exact shows_classes format fun none => fruitful ((classes_empty_iff source).mp none)
  · intro source records fruitful extracted unbroken
    rw [object_model_extracted] at extracted
    cases extracted
    exact ⟨_, object_model_built .plantUml source, headers_told fruitful unbroken⟩

def redeclared : String :=
  "class A:\n x: B\nclass B:\n pass\nclass A(C):\n _y: B\n"

def redeclaredRecords : List ClassRecord :=
  [⟨"A", ["C"], [⟨"_y", "B"⟩], []⟩, ⟨"B", [], [], []⟩]

theorem build_of_redeclared_class :
    (¬ Barren redeclared ∧
      (extract .objectModel redeclared).result = .ok (.objectModel redeclaredRecords) ∧
      ∀ record ∈ redeclaredRecords, Unbroken record) ∧
    (∃ diagram, (build .objectModel .json redeclared).result = .ok diagram ∧
      ShowsClasses ["A", "B"] .json diagram ∧ ¬ ShowsNothing .json diagram) ∧
    ∃ diagram, (build .objectModel .plantUml redeclared).result = .ok diagram ∧
      (linesOf diagram).count (header "class" "A") = 1 ∧
      (linesOf diagram).count (header "class" "C") = 0 := by
  have names : declaredNames redeclared = ["A", "B", "A"] := by
    decide +kernel
  have accepted : ObjectModel.isRejected redeclared = false := by
    decide +kernel
  have fruitful : ¬ Barren redeclared := by
    rintro (rejected | none)
    · rw [accepted] at rejected
      cases rejected
    · simp [declaredNames, none] at names
  have extracted : (extract .objectModel redeclared).result = .ok (.objectModel redeclaredRecords) := by
    rw [object_model_extracted]
    decide +kernel
  have unbroken : ∀ record ∈ redeclaredRecords, Unbroken record := by
    simp only [redeclaredRecords, List.forall_mem_cons]
    exact ⟨⟨by decide, by decide, by decide⟩, ⟨by decide, by decide, by decide⟩, by simp⟩
  obtain ⟨-, built, headers, -⟩ := builds_show_what_is_declared
  obtain ⟨document, written, empty, shown⟩ := built .json redeclared
  obtain ⟨markup, drawn, told⟩ := headers redeclared redeclaredRecords fruitful extracted unbroken
  have distinct : ["A", "B", "A"].eraseDups = ["A", "B"] := by decide
  rw [names, distinct] at shown
  rw [names] at told
  exact ⟨⟨fruitful, extracted, unbroken⟩,
    ⟨document, written, shown fruitful, fun nothing => fruitful (empty.mp nothing)⟩,
    markup, drawn, told "A", told "C"⟩

end SourceDiagram
