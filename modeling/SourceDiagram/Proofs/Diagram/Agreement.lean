import SourceDiagram.Proofs.Diagram
import SourceDiagram.Proofs.Diagram.Markup

set_option autoImplicit false

namespace SourceDiagram.Diagram

open SourceDiagram.Json
open SourceDiagram.Model

def memberAt? (key : String) : Value → Option Value
  | .object entries => Value.lookup? key entries
  | _ => none

def textAt? (key : String) (value : Value) : Option String := do
  match ← memberAt? key value with
  | .string text => return text
  | _ => none

def itemsAt? (key : String) (value : Value) : Option (List Value) := do
  match ← memberAt? key value with
  | .array items => return items
  | _ => none

def markerOf? (word : String) : Option String :=
  (Visibility.all.find? fun visibility => visibility.word = word).map Visibility.marker

def stereotypeOf? (word : String) : Option (Option String) :=
  (MethodKind.all.find? fun kind => kind.word = word).map MethodKind.stereotype?

def drawnColumn? (view : Value) : Option String := do
  let name ← textAt? "name" view
  let spec ← textAt? "spec" view
  return "\t+ " ++ name ++ ": " ++ spec

def drawnTable? (view : Value) : Option (List String) := do
  let name ← textAt? "name" view
  let columns ← (← itemsAt? "columns" view).mapM drawnColumn?
  return ["", header "entity" name] ++ columns ++ [footer]

def drawnAttribute? (view : Value) : Option String := do
  let marker ← markerOf? (← textAt? "visibility" view)
  let name ← textAt? "name" view
  let declared ← textAt? "declared_type" view
  let line := "  " ++ marker ++ " " ++ name
  return if declared.isEmpty then line else line ++ ": " ++ declared

def drawnMethod? (view : Value) : Option String := do
  let marker ← markerOf? (← textAt? "visibility" view)
  let signature ← textAt? "signature" view
  let line := "  " ++ marker ++ " " ++ signature
  match ← stereotypeOf? (← textAt? "kind" view) with
  | some stereotype => return line ++ " " ++ stereotype
  | none => return line

def drawnClass? (view : Value) : Option (List String) := do
  let name ← textAt? "name" view
  let attributes ← (← itemsAt? "attributes" view).mapM drawnAttribute?
  let methods ← (← itemsAt? "methods" view).mapM drawnMethod?
  return [header "class" name] ++ attributes ++ methods ++ [footer]

def drawnEdge? (view : Value) : Option (String × String) := do
  let kind ← textAt? "kind" view
  let source ← textAt? "from" view
  let target ← textAt? "to" view
  if kind = "inheritance" then return (kind, target ++ " <|-- " ++ source)
  else if kind = "composition" then return (kind, source ++ " *-- " ++ target)
  else none

def drawnOf (kind : String) (drawn : List (String × String)) : List String :=
  (drawn.filter fun edge => edge.1 = kind).map Prod.snd

def drawnSchema? (document : Value) : Option (List String) := do
  let tables ← (← itemsAt? "tables" document).mapM drawnTable?
  return [opening, ""] ++ directives ++ tables.flatten ++ [closing]

def drawnObjectModel? (document : Value) : Option (List String) := do
  let types ← (← itemsAt? "types" document).mapM drawnClass?
  let edges ← (← itemsAt? "edges" document).mapM drawnEdge?
  if types.isEmpty then return placeholderLines
  return [opening] ++ directives ++ types.flatten ++
    (drawnOf "inheritance" edges ++ drawnOf "composition" edges) ++ [closing]

def drawn? (document : Value) : Option String := do
  let kind ← textAt? "kind" document
  if kind = "schema" then return text (← drawnSchema? document)
  else if kind = "object_model" then return text (← drawnObjectModel? document)
  else none

section Lists

variable {α β : Type} {view : α → Value} {draw : Value → Option β} {line : α → β}

theorem all_drawn (each : ∀ item, draw (view item) = some (line item)) (items : List α) :
    (items.map view).mapM draw = some (items.map line) := by
  induction items with
  | nil => rfl
  | cons item items ih =>
    rw [List.map_cons, List.mapM_cons, each, ih]
    rfl

end Lists

theorem marker_of_word (visibility : Visibility) :
    markerOf? visibility.word = some visibility.marker := by
  cases visibility <;> rfl

theorem stereotype_of_word (kind : MethodKind) :
    stereotypeOf? kind.word = some kind.stereotype? := by
  cases kind <;> rfl

theorem drawn_column (column : Column) : drawnColumn? (encode column) = some (columnLine column) :=
  rfl

theorem drawn_table (table : Table) : drawnTable? (encode table) = some (tableLines table) := by
  have members : drawnTable? (encode table) = (do
      let columns ← (table.columns.map encode).mapM drawnColumn?
      return ["", header "entity" table.name] ++ columns ++ [footer]) := rfl
  rw [members, all_drawn drawn_column]
  rfl

theorem drawn_attribute (member : Attribute) :
    drawnAttribute? (attributeView member) = some (attributeLine member) := by
  have members : drawnAttribute? (attributeView member) = (do
      let marker ← markerOf? member.visibility.word
      let line := "  " ++ marker ++ " " ++ member.name
      return if member.declaredType.isEmpty then line else line ++ ": " ++ member.declaredType) := rfl
  rw [members, marker_of_word]
  rfl

theorem drawn_method (method : Method) :
    drawnMethod? (methodView method) = some (methodLine method) := by
  have members : drawnMethod? (methodView method) = (do
      let marker ← markerOf? method.visibility.word
      let line := "  " ++ marker ++ " " ++ method.signature
      match ← stereotypeOf? method.kind.word with
      | some stereotype => return line ++ " " ++ stereotype
      | none => return line) := rfl
  rw [members, marker_of_word, stereotype_of_word, methodLine]
  cases method.kind.stereotype? <;> rfl

theorem drawn_class (record : ClassRecord) :
    drawnClass? (classView record) = some (classLines record) := by
  have members : drawnClass? (classView record) = (do
      let attributes ← (record.attributes.map attributeView).mapM drawnAttribute?
      let methods ← (record.methods.map methodView).mapM drawnMethod?
      return [header "class" record.name] ++ attributes ++ methods ++ [footer]) := rfl
  rw [members, all_drawn drawn_attribute, all_drawn drawn_method]
  rfl

theorem drawn_edge (edge : Edge) : drawnEdge? (encode edge) = some (edge.kind.word, edgeLine edge) := by
  obtain ⟨kind, source, target⟩ := edge
  cases kind <;> rfl

theorem drawn_of_kind (kind : EdgeKind) (edges : List Edge) :
    drawnOf kind.word (edges.map fun edge => (edge.kind.word, edgeLine edge)) =
      (edges.filter fun edge => edge.kind = kind).map edgeLine := by
  have words : ∀ other : EdgeKind, other.word = kind.word ↔ other = kind := by
    intro other
    cases other <;> cases kind <;> decide
  rw [drawnOf, List.filter_map, List.map_map]
  simp only [Function.comp_def, words]

theorem drawn_schema_lines (tables : List Table) :
    drawnSchema? (schemaDocument tables) = some (schemaLines tables) := by
  have members : drawnSchema? (schemaDocument tables) = (do
      let drawn ← (tables.map encode).mapM drawnTable?
      return [opening, ""] ++ directives ++ drawn.flatten ++ [closing]) := rfl
  rw [members, all_drawn drawn_table]
  rfl

theorem drawn_schema (tables : List Table) :
    drawn? (schemaDocument tables) = some (schemaMarkup tables) := by
  have kind : textAt? "kind" (schemaDocument tables) = some "schema" := rfl
  simp [drawn?, kind, drawn_schema_lines, schemaMarkup]

theorem drawn_object_model_lines (records : List ClassRecord) (edges : List Edge) :
    drawnObjectModel? (objectModelDocument records edges) =
      some (objectModelLines records edges) := by
  have members : drawnObjectModel? (objectModelDocument records edges) = (do
      let types ← (records.map classView).mapM drawnClass?
      let links ← (edges.map encode).mapM drawnEdge?
      if types.isEmpty then return placeholderLines
      return [opening] ++ directives ++ types.flatten ++
        (drawnOf "inheritance" links ++ drawnOf "composition" links) ++ [closing]) := rfl
  have bases := drawn_of_kind .inheritance edges
  have wholes := drawn_of_kind .composition edges
  rw [members, all_drawn drawn_class, all_drawn drawn_edge]
  cases records with
  | nil => rfl
  | cons record records =>
    simp_all [objectModelLines, edgeLines, EdgeKind.all, EdgeKind.word, List.flatMap]

theorem drawn_object_model (records : List ClassRecord) (edges : List Edge) :
    drawn? (objectModelDocument records edges) = some (objectModelMarkup records edges) := by
  have kind : textAt? "kind" (objectModelDocument records edges) = some "object_model" := rfl
  simp [drawn?, kind, drawn_object_model_lines, objectModelMarkup]

theorem types_empty_iff (records : List ClassRecord) (edges : List Edge) :
    itemsAt? "types" (objectModelDocument records edges) = some [] ↔ records = [] := by
  have types : itemsAt? "types" (objectModelDocument records edges) =
      some (records.map classView) := rfl
  rw [types, Option.some.injEq, List.map_eq_nil_iff]

-- The text of every document has one value, and the markup of the same facts is drawn from it. It
-- is the placeholder where the document has no types.
theorem markup_is_drawn_from_documents :
    (∀ (records : List ClassRecord) (edges : List Edge), ∃ document,
      Denotes (renderClasses .json records edges).result document ∧
      drawn? document = some (renderClasses .plantUml records edges).result ∧
      ((renderClasses .plantUml records edges).result = placeholder ↔
        itemsAt? "types" document = some [])) ∧
    ∀ tables : List Table, ∃ document,
      Denotes (renderTables .json tables).result document ∧
      drawn? document = some (renderTables .plantUml tables).result := by
  constructor
  · intro records edges
    refine ⟨objectModelDocument records edges, object_model_text_denotes records edges,
      drawn_object_model records edges, ?_⟩
    rw [types_empty_iff]
    exact markup_placeholder_iff records edges
  · intro tables
    exact ⟨schemaDocument tables, schema_text_denotes tables, drawn_schema tables⟩

end SourceDiagram.Diagram
