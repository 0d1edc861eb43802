import SourceDiagram.Build
import SourceDiagram.Proofs.Json.Reading
import SourceDiagram.Proofs.Model.Coding

set_option autoImplicit false

namespace SourceDiagram.Diagram

open SourceDiagram.Json
open SourceDiagram.Model

theorem attribute_view_proper (member : Attribute) : (attributeView member).Proper :=
  ⟨by simp [Attribute.entries], trivial, trivial, trivial, trivial⟩

theorem attribute_view_decoded (member : Attribute) :
    decode? (attributeView member) = some member :=
  rfl

theorem method_view_proper (method : Method) : (methodView method).Proper :=
  ⟨by simp [Method.entries], trivial, Faithful.proper method.parameters, trivial, trivial, trivial,
    trivial, trivial⟩

theorem method_view_decoded (method : Method) : decode? (methodView method) = some method :=
  Faithful.decoded method

theorem class_view_proper (record : ClassRecord) : (classView record).Proper :=
  ⟨by simp, trivial, Faithful.proper record.bases, all_proper attribute_view_proper _,
    all_proper method_view_proper _, trivial⟩

theorem class_view_decoded (record : ClassRecord) : decode? (classView record) = some record := by
  have fields : decode? (classView record) = (do
      return ClassRecord.mk (← decode? (encode record.name)) (← decode? (encode record.bases))
        (← decodeAll? (record.attributes.map attributeView))
        (← decodeAll? (record.methods.map methodView))) := rfl
  rw [fields, Faithful.decoded, Faithful.decoded, all_decoded attribute_view_decoded,
    all_decoded method_view_decoded]
  rfl

-- A text is the text of one value and of no other, and the reader finds it.
structure Denotes (text : String) (value : Value) : Prop where
  written : TextOf value text.toList
  only : ∀ other, TextOf other text.toList → other = value
  read : parse? text = some value

theorem printed_denotes (layout : Layout) {value : Value} (proper : value.Proper) :
    Denotes (value.text layout) value :=
  have written := text_of_printed layout proper
  ⟨written, fun _ => text_of_one_value written, parse_text written⟩

theorem Denotes.same {text other : String} {first second : Value} (one : Denotes text first)
    (two : Denotes other second) (same : text = other) : first = second :=
  two.only first (same ▸ one.written)

theorem schema_document_proper (tables : List Table) : (schemaDocument tables).Proper :=
  ⟨by simp, trivial, Faithful.proper tables, trivial⟩

theorem object_model_document_proper (records : List ClassRecord) (edges : List Edge) :
    (objectModelDocument records edges).Proper :=
  ⟨by simp, trivial, all_proper class_view_proper records, Faithful.proper edges, trivial⟩

theorem schema_document_decoded (tables : List Table) :
    ∃ entries, schemaDocument tables = .object entries ∧
      Value.lookup? "kind" entries = some (.string "schema") ∧
      (Value.lookup? "tables" entries).bind decode? = some tables :=
  ⟨_, rfl, rfl, Faithful.decoded tables⟩

theorem object_model_document_decoded (records : List ClassRecord) (edges : List Edge) :
    ∃ entries, objectModelDocument records edges = .object entries ∧
      Value.lookup? "kind" entries = some (.string "object_model") ∧
      (Value.lookup? "types" entries).bind decode? = some records ∧
      (Value.lookup? "edges" entries).bind decode? = some edges :=
  ⟨_, rfl, rfl, all_decoded class_view_decoded records, Faithful.decoded edges⟩

theorem schema_text_denotes (tables : List Table) :
    Denotes (renderTables .json tables).result (schemaDocument tables) :=
  printed_denotes .indented (schema_document_proper tables)

theorem object_model_text_denotes (records : List ClassRecord) (edges : List Edge) :
    Denotes (renderClasses .json records edges).result (objectModelDocument records edges) :=
  printed_denotes .indented (object_model_document_proper records edges)

theorem schema_text_injective {tables others : List Table}
    (same : (renderTables .json tables).result = (renderTables .json others).result) :
    tables = others := by
  have documents := (schema_text_denotes tables).same (schema_text_denotes others) same
  obtain ⟨entries, whole, -, found⟩ := schema_document_decoded tables
  obtain ⟨entries', whole', -, found'⟩ := schema_document_decoded others
  rw [whole, whole'] at documents
  cases documents
  exact Option.some.inj (found.symm.trans found')

theorem object_model_text_injective {records others : List ClassRecord} {edges links : List Edge}
    (same : (renderClasses .json records edges).result = (renderClasses .json others links).result) :
    records = others ∧ edges = links := by
  have documents :=
    (object_model_text_denotes records edges).same (object_model_text_denotes others links) same
  obtain ⟨entries, whole, -, types, relations⟩ := object_model_document_decoded records edges
  obtain ⟨entries', whole', -, types', relations'⟩ := object_model_document_decoded others links
  rw [whole, whole'] at documents
  cases documents
  exact ⟨Option.some.inj (types.symm.trans types'), Option.some.inj (relations.symm.trans relations')⟩

theorem kinds_told_apart (tables : List Table) (records : List ClassRecord) (edges : List Edge) :
    (renderTables .json tables).result ≠ (renderClasses .json records edges).result := by
  intro same
  have documents := (schema_text_denotes tables).same (object_model_text_denotes records edges) same
  obtain ⟨entries, whole, kind, -⟩ := schema_document_decoded tables
  obtain ⟨entries', whole', kind', -⟩ := object_model_document_decoded records edges
  rw [whole, whole'] at documents
  cases documents
  rw [kind] at kind'
  simp at kind'

-- A document is the text of one object, in which no object has a key twice. It tells its kind, and
-- the tables, or the classes and the relations, are decoded from it as they were given, so that no
-- two inputs have one text.
theorem documents_lose_nothing :
    (∀ tables : List Table, ∃ entries,
      Denotes (renderTables .json tables).result (.object entries) ∧
      Value.lookup? "kind" entries = some (.string "schema") ∧
      (Value.lookup? "tables" entries).bind decode? = some tables ∧
      ∀ inner, Within (.object inner) (.object entries) → (inner.map Prod.fst).Nodup) ∧
    (∀ (records : List ClassRecord) (edges : List Edge), ∃ entries,
      Denotes (renderClasses .json records edges).result (.object entries) ∧
      Value.lookup? "kind" entries = some (.string "object_model") ∧
      (Value.lookup? "types" entries).bind decode? = some records ∧
      (Value.lookup? "edges" entries).bind decode? = some edges ∧
      ∀ inner, Within (.object inner) (.object entries) → (inner.map Prod.fst).Nodup) ∧
    (∀ tables others, (renderTables .json tables).result = (renderTables .json others).result →
      tables = others) ∧
    (∀ records others edges links,
      (renderClasses .json records edges).result = (renderClasses .json others links).result →
      records = others ∧ edges = links) ∧
    ∀ tables records edges,
      (renderTables .json tables).result ≠ (renderClasses .json records edges).result := by
  refine ⟨?_, ?_, fun _ _ => schema_text_injective, fun _ _ _ _ => object_model_text_injective,
    kinds_told_apart⟩
  · intro tables
    obtain ⟨entries, whole, kind, found⟩ := schema_document_decoded tables
    have denotes := schema_text_denotes tables
    have proper := schema_document_proper tables
    rw [whole] at denotes proper
    exact ⟨entries, denotes, kind, found, fun _ => keys_distinct proper⟩
  · intro records edges
    obtain ⟨entries, whole, kind, types, relations⟩ := object_model_document_decoded records edges
    have denotes := object_model_text_denotes records edges
    have proper := object_model_document_proper records edges
    rw [whole] at denotes proper
    exact ⟨entries, denotes, kind, types, relations, fun _ => keys_distinct proper⟩

theorem schema_document_with_escapes :
    (renderTables .json [⟨"a\"\\\x01😀", []⟩]).result =
      "\x7b\n  \"kind\": \"schema\",\n  \"tables\": [\n    \x7b\n      \"name\": \"a\\\"\\\\\\u0001😀\",\n      \"columns\": []\n    \x7d\n  ]\n\x7d" ∧
    ∃ entries,
      parse? (renderTables .json [⟨"a\"\\\x01😀", []⟩]).result = some (.object entries) ∧
      (Value.lookup? "tables" entries).bind decode? = some [(⟨"a\"\\\x01😀", []⟩ : Table)] ∧
      (entries.map Prod.fst).Nodup := by
  refine ⟨by decide +kernel, ?_⟩
  obtain ⟨entries, denotes, -, found, distinct⟩ := documents_lose_nothing.1 [⟨"a\"\\\x01😀", []⟩]
  exact ⟨entries, denotes.read, found, distinct entries .whole⟩

end SourceDiagram.Diagram
