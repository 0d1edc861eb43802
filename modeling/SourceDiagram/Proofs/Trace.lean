import SourceDiagram.Proofs.Build
import SourceDiagram.Proofs.Diagram.Edges
import SourceDiagram.Proofs.Related
import SourceDiagram.Proofs.Relation

set_option autoImplicit false

namespace SourceDiagram

open SourceDiagram.Diagram
open SourceDiagram.Model
open SourceDiagram.Syntax

def statementEvent (statement : Schema.Statement) : Event :=
  .tableRead statement.name
    ((Schema.readColumns statement.body).map Column.name).eraseDups.length

def Tells (definition : SyntaxTree) (event : Event) : Prop :=
  ∃ record, ObjectModel.Declares definition record ∧
    event = .classRead record.name record.bases.length record.attributes.length
      record.methods.length

def relationCount (kind : EdgeKind) (records : List ClassRecord) : Nat :=
  (ofKind kind (relations records)).length

def drawing : OutputFormat → Event → List Event
  | .plantUml, event => [event]
  | .json, _ => []

def drawingClasses (format : OutputFormat) (records : List ClassRecord) : List Event :=
  [.inheritanceResolved (relationCount .inheritance records),
    .compositionResolved (relationCount .composition records)] ++
  drawing format
    (if records = [] then .placeholderDrawn
    else .classesDrawn records.length
      (relationCount .inheritance records + relationCount .composition records))

-- The events that lead to the result of a build, in order.
inductive Reported (format : OutputFormat) (source : String) :
    InputKind → Except Fault String → List Event → Prop
  | tableless : Schema.statements source.toList = [] →
      (extract .schema source).result = .error .noTable →
      Reported format source .schema (.error .noTable)
        [.extracted .schema false source.utf8ByteSize]
  | tables {tables : List Table} {diagram : String} :
      (extract .schema source).result = .ok (.schema tables) → tables ≠ [] →
      tables.length =
        ((Schema.statements source.toList).map Schema.Statement.name).eraseDups.length →
      Reported format source .schema (.ok diagram)
        ((Schema.statements source.toList).map statementEvent ++
          [.extracted .schema true source.utf8ByteSize] ++
          drawing format (.schemaDrawn tables.length) ++
          [.built format diagram.utf8ByteSize])
  | refused {diagram : String} : ObjectModel.isRejected source = true →
      (extract .objectModel source).result = .ok (.objectModel []) →
      Reported format source .objectModel (.ok diagram)
        ([.moduleRefused, .extracted .objectModel false source.utf8ByteSize] ++
          drawingClasses format [] ++ [.built format diagram.utf8ByteSize])
  | classes {records : List ClassRecord} {told : List Event} {diagram : String} :
      ObjectModel.isRejected source = false →
      (extract .objectModel source).result = .ok (.objectModel records) →
      List.Forall₂ Tells (ObjectModel.declarations source) told →
      records.length = (declaredNames source).eraseDups.length →
      Reported format source .objectModel (.ok diagram)
        (told ++ [.moduleRead records.length,
          .extracted .objectModel (!records.isEmpty) source.utf8ByteSize] ++
          drawingClasses format records ++ [.built format diagram.utf8ByteSize])

theorem extract_events (kind : InputKind) (source : String) :
    (extract kind source).events =
      ((Extraction.empty kind).interpret source).2.2 ++
        [.extracted kind ((Extraction.empty kind).interpret source).2.1 source.utf8ByteSize] :=
  rfl

theorem build_events {kind : InputKind} {source : String} {facts : Extraction}
    (extracted : (extract kind source).result = .ok facts) (format : OutputFormat) :
    (build kind format source).events =
      (extract kind source).events ++ (render format facts).events ++
        [.built format (render format facts).result.utf8ByteSize] := by
  rw [build, extracted]

theorem failed_events {kind : InputKind} {source : String} {fault : Fault}
    (failed : (extract kind source).result = .error fault) (format : OutputFormat) :
    (build kind format source).events = (extract kind source).events := by
  rw [build, failed]

theorem render_tables_events (format : OutputFormat) (tables : List Table) :
    (render format (.schema tables)).events = drawing format (.schemaDrawn tables.length) := by
  cases format with
  | plantUml => rfl
  | json => rfl

theorem table_event_told (statement : Schema.Statement) :
    Schema.tableEvent (Schema.readTable statement) = statementEvent statement := by
  have names := congrArg List.length (Schema.columns_sum_up statement).firstSeen
  rw [List.length_map] at names
  rw [Schema.tableEvent, statementEvent, Schema.read_table_name, names]

theorem schema_read (source : String) :
    ((Extraction.empty .schema).interpret source).2.2 =
      (Schema.statements source.toList).map statementEvent := by
  show (Schema.tablesOf source).map Schema.tableEvent = _
  rw [Schema.tablesOf, List.map_map]
  exact List.map_congr_left fun statement _ => table_event_told statement

theorem schema_reported (format : OutputFormat) (source : String) :
    Reported format source .schema (build .schema format source).result
      (build .schema format source).events := by
  have whole : Schema.history [source] = Schema.statements source.toList := by
    simp [Schema.history]
  have found : ((Extraction.empty .schema).interpret source).2.1 =
      !(Schema.after [source]).isEmpty := rfl
  by_cases none : Schema.after [source] = []
  · have absent : Schema.statements source.toList = [] := by
      rw [← whole, ← Schema.after_empty_iff, none]
    have failed : (extract .schema source).result = .error .noTable := by
      rw [schema_extracted, if_pos none]
    rw [schema_built, if_pos none, failed_events failed, extract_events, schema_read, found, absent,
      none]
    exact .tableless absent failed
  · have extracted : (extract .schema source).result = .ok (.schema (Schema.after [source])) := by
      rw [schema_extracted, if_neg none]
    have present : (Schema.after [source]).isEmpty = false := by
      simpa using none
    have names := congrArg List.length (Schema.table_names [source])
    rw [List.length_map, whole] at names
    rw [schema_built, if_neg none, build_events extracted, extract_events, schema_read, found,
      present, render_tables_events]
    exact .tables extracted none names

theorem inheritance_kind {records : List ClassRecord} {edge : Edge}
    (member : edge ∈ inheritance records) : edge.kind = .inheritance := by
  obtain ⟨record, -, own⟩ := List.mem_flatMap.mp member
  obtain ⟨base, -, -, rfl⟩ := mem_inheritance_of own
  rfl

theorem composition_kind {records : List ClassRecord} {edge : Edge}
    (member : edge ∈ composition records) : edge.kind = .composition := by
  obtain ⟨record, -, own⟩ := List.mem_flatMap.mp member
  obtain ⟨part, -, -, rfl⟩ := mem_composition_of own
  rfl

theorem relations_of_kinds (records : List ClassRecord) :
    ofKind .inheritance (relations records) = inheritance records ∧
      ofKind .composition (relations records) = composition records := by
  have bases : ofKind .inheritance (inheritance records) = inheritance records ∧
      ofKind .composition (inheritance records) = [] := by
    constructor
    · exact List.filter_eq_self.mpr fun edge member => by simp [inheritance_kind member]
    · exact List.filter_eq_nil_iff.mpr fun edge member => by simp [inheritance_kind member]
  have parts : ofKind .inheritance (composition records) = [] ∧
      ofKind .composition (composition records) = composition records := by
    constructor
    · exact List.filter_eq_nil_iff.mpr fun edge member => by simp [composition_kind member]
    · exact List.filter_eq_self.mpr fun edge member => by simp [composition_kind member]
  simp only [ofKind, relations, List.filter_append] at bases parts ⊢
  rw [bases.1, bases.2, parts.1, parts.2, List.append_nil, List.nil_append]
  exact ⟨rfl, rfl⟩

theorem render_classes_events (format : OutputFormat) (records : List ClassRecord) :
    (render format (.objectModel records)).events = drawingClasses format records := by
  obtain ⟨bases, parts⟩ := relations_of_kinds records
  rw [drawingClasses, relationCount, relationCount, bases, parts]
  cases format with
  | json => rfl
  | plantUml =>
    have whole : (relations records).length =
        (inheritance records).length + (composition records).length := List.length_append
    cases records with
    | nil => rfl
    | cons record records =>
      rw [if_neg (List.cons_ne_nil _ _), ← whole]
      rfl

theorem module_read {source : String} (accepted : ObjectModel.isRejected source = false) :
    ∃ told, List.Forall₂ Tells (ObjectModel.declarations source) told ∧
      (Extraction.empty .objectModel).interpret source =
        (.objectModel (ObjectModel.after [source]), !(ObjectModel.after [source]).isEmpty,
          told ++ [.moduleRead (ObjectModel.after [source]).length]) := by
  obtain ⟨module, parsed, read⟩ := ObjectModel.accepted_read accepted
  have declared : List.Forall₂ ObjectModel.Declares (ObjectModel.declarations source)
      (ObjectModel.classesOf module) := by
    rw [ObjectModel.declarations, parsed]
    exact ObjectModel.classes_declared (parts_complete parsed)
  refine ⟨(ObjectModel.classesOf module).map ObjectModel.classEvent, ?_, ?_⟩
  · rw [List.forall₂_map_right_iff]
    exact declared.imp fun definition record declares => ⟨record, declares, rfl⟩
  · rw [ObjectModel.after, List.foldl_cons, List.foldl_nil, Extraction.empty, Extraction.interpret,
      read]
    rfl

theorem object_model_reported (format : OutputFormat) (source : String) :
    Reported format source .objectModel (build .objectModel format source).result
      (build .objectModel format source).events := by
  have extracted := object_model_extracted source
  rw [build_events extracted, object_model_built, extract_events, render_classes_events]
  by_cases rejected : ObjectModel.isRejected source = true
  · have unread := ObjectModel.rejected_unread rejected []
    have none : ObjectModel.after [source] = [] := congrArg Prod.fst unread
    rw [Extraction.empty, Extraction.interpret, unread, none]
    rw [none] at extracted
    exact .refused rejected extracted
  · have accepted := Bool.eq_false_iff.mpr rejected
    obtain ⟨told, tells, read⟩ := module_read accepted
    have names := congrArg List.length (class_names accepted)
    rw [List.length_map] at names
    rw [read, List.append_assoc told]
    exact .classes accepted extracted tells names

def tableName? : Event → Option String
  | .tableRead name _ => some name
  | _ => none

-- Events of different stages that count the same things.
structure Consistent (events : List Event) : Prop where
  entities : ∀ count, .schemaDrawn count ∈ events →
    count = (events.filterMap tableName?).eraseDups.length
  classes : ∀ count edges, .classesDrawn count edges ∈ events → .moduleRead count ∈ events ∧
    ∃ bases parts, .inheritanceResolved bases ∈ events ∧ .compositionResolved parts ∈ events ∧
      edges = bases + parts

section Counts

variable {kind : InputKind} {format : OutputFormat} {source : String}
  {result : Except Fault String} {events : List Event}

theorem mem_drawing {event drawn : Event} :
    event ∈ drawing format drawn ↔ format = .plantUml ∧ event = drawn := by
  cases format with
  | plantUml => simp [drawing]
  | json => simp [drawing]

theorem tables_named (statements : List Schema.Statement) {first drawn last : Event}
    (unread : tableName? first = none) (undrawn : tableName? drawn = none)
    (unbuilt : tableName? last = none) :
    (statements.map statementEvent ++ [first] ++ drawing format drawn ++ [last]).filterMap
      tableName? = statements.map Schema.Statement.name := by
  induction statements with
  | nil => cases format <;> simp [drawing, unread, undrawn, unbuilt]
  | cons statement statements ih => exact congrArg (statement.name :: ·) ih

theorem told_apart {definitions : List SyntaxTree} {told : List Event}
    (tells : List.Forall₂ Tells definitions told) {event : Event}
    (other : ∀ name bases attributes methods, event ≠ .classRead name bases attributes methods) :
    event ∉ told := by
  have named : ∀ event ∈ told, ∃ name bases attributes methods,
      event = .classRead name bases attributes methods :=
    forall_right tells fun _ _ ⟨_, _, same⟩ => ⟨_, _, _, _, same⟩
  intro member
  obtain ⟨name, bases, attributes, methods, same⟩ := named event member
  exact other name bases attributes methods same

theorem Reported.consistent (reported : Reported format source kind result events) :
    Consistent events := by
  cases reported with
  | tableless => constructor <;> simp
  | @tables tables diagram _ _ names =>
    constructor
    · intro count drawn
      obtain ⟨-, same⟩ : format = .plantUml ∧ count = tables.length := by
        simpa [mem_drawing, statementEvent] using drawn
      rw [tables_named _ rfl rfl rfl, same, names]
    · simp [mem_drawing, statementEvent]
  | refused => constructor <;> simp [drawingClasses, mem_drawing]
  | @classes records told diagram _ _ tells =>
    have notTable : ∀ count, .schemaDrawn count ∉ told := fun _ => told_apart tells (by simp)
    have notClasses : ∀ count edges, .classesDrawn count edges ∉ told := fun _ _ =>
      told_apart tells (by simp)
    constructor
    · intro count drawn
      by_cases empty : records = []
      · simp [drawingClasses, mem_drawing, notTable, empty] at drawn
      · simp [drawingClasses, mem_drawing, notTable, empty] at drawn
    · intro count edges drawn
      by_cases empty : records = []
      · simp [drawingClasses, mem_drawing, notClasses, empty] at drawn
      · obtain ⟨-, rfl, rfl⟩ : format = .plantUml ∧ count = records.length ∧
            edges = relationCount .inheritance records + relationCount .composition records := by
          simpa [drawingClasses, mem_drawing, notClasses, empty] using drawn
        exact ⟨by simp, _, _, by simp [drawingClasses], by simp [drawingClasses], rfl⟩

theorem Reported.placeholder_iff (reported : Reported format source kind result events) :
    .placeholderDrawn ∈ events ↔
      format = .plantUml ∧ (extract kind source).result = .ok (.objectModel []) := by
  cases reported with
  | tableless _ failed => simp [failed]
  | tables extracted => simp [mem_drawing, statementEvent, extracted]
  | refused _ extracted => simp [drawingClasses, mem_drawing, extracted]
  | @classes records told diagram _ extracted tells =>
    have apart : .placeholderDrawn ∉ told := told_apart tells (by simp)
    by_cases empty : records = []
    · simp [drawingClasses, mem_drawing, apart, extracted, empty]
    · simp [drawingClasses, mem_drawing, apart, extracted, empty]

end Counts

-- A build reports what it reads, whether it found anything and, unless that is a fault, what it
-- relates and draws and how long its result is. What is drawn are as many tables as the statements
-- have names, or as many classes as the module was said to have and as many relations as were
-- resolved of both kinds. The placeholder stands for a module without classes.
theorem events_tell_the_build (kind : InputKind) (format : OutputFormat) (source : String) :
    Reported format source kind (build kind format source).result
      (build kind format source).events ∧
    Consistent (build kind format source).events ∧
    (.placeholderDrawn ∈ (build kind format source).events ↔
      format = .plantUml ∧ (extract kind source).result = .ok (.objectModel [])) := by
  have reported : Reported format source kind (build kind format source).result
      (build kind format source).events := by
    cases kind with
    | schema => exact schema_reported format source
    | objectModel => exact object_model_reported format source
  exact ⟨reported, reported.consistent, reported.placeholder_iff⟩

theorem events_of_redeclared_class :
    .classesDrawn 2 2 ∈ (build .objectModel .plantUml redeclared).events ∧
    .moduleRead 2 ∈ (build .objectModel .plantUml redeclared).events ∧
    ∃ bases parts,
      .inheritanceResolved bases ∈ (build .objectModel .plantUml redeclared).events ∧
      .compositionResolved parts ∈ (build .objectModel .plantUml redeclared).events ∧
      2 = bases + parts := by
  have drawn : .classesDrawn 2 2 ∈ (build .objectModel .plantUml redeclared).events := by
    decide +kernel
  obtain ⟨-, agree, -⟩ := events_tell_the_build .objectModel .plantUml redeclared
  exact ⟨drawn, agree.classes 2 2 drawn⟩

end SourceDiagram
