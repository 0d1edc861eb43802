import SourceDiagram.Configuration
import SourceDiagram.Proofs.Diagram
import SourceDiagram.Proofs.Json.Forms

set_option autoImplicit false

namespace SourceDiagram.Model

open SourceDiagram.Json

instance : Formed Visibility where
  Forms written visibility := ChoiceForm visibility.word written
  decoded_iff _ _ := choose_iff (by rintro ⟨⟩ <;> simp [Visibility.all]) Visibility.word_injective

instance : Formed OutputFormat where
  Forms written format := ChoiceForm format.word written
  decoded_iff _ _ :=
    choose_iff (by rintro ⟨⟩ <;> simp [OutputFormat.all])
      (by rintro ⟨⟩ ⟨⟩ <;> simp [OutputFormat.word])

instance : Formed EdgeKind where
  Forms written kind := ChoiceForm kind.word written
  decoded_iff _ _ :=
    choose_iff (by rintro ⟨⟩ <;> simp [EdgeKind.all]) (by rintro ⟨⟩ ⟨⟩ <;> simp [EdgeKind.word])

instance : Formed MethodKind where
  Forms written kind := ChoiceForm kind.word written
  decoded_iff _ _ :=
    choose_iff (by rintro ⟨⟩ <;> simp [MethodKind.all])
      (by rintro ⟨⟩ ⟨⟩ <;> simp [MethodKind.word])

instance : Formed Column where
  Forms written column :=
    RecordForm [.required "name" column.name, .required "spec" column.spec] 0 written
  decoded_iff := by
    rintro written proper ⟨name, spec⟩
    refine record_decoded_iff proper rfl ?_
    exact required_makes fun _ => required_makes fun _ => parts_taken_makes (by simp)

instance : Formed Table where
  Forms written table :=
    RecordForm [.required "name" table.name, .required "columns" table.columns] 0 written
  decoded_iff := by
    rintro written proper ⟨name, columns⟩
    refine record_decoded_iff proper rfl ?_
    exact required_makes fun _ => required_makes fun _ => parts_taken_makes (by simp)

instance : Formed Edge where
  Forms written edge :=
    RecordForm [.required "kind" edge.kind, .required "from" edge.source,
      .required "to" edge.target] 0 written
  decoded_iff := by
    rintro written proper ⟨kind, source, target⟩
    refine record_decoded_iff proper rfl ?_
    exact required_makes fun _ => required_makes fun _ => required_makes fun _ =>
      parts_taken_makes (by simp [and_assoc])

instance : Formed Attribute where
  Forms written member :=
    RecordForm [.required "name" member.name, .required "declared_type" member.declaredType] 0
      written
  decoded_iff := by
    rintro written proper ⟨name, declaredType⟩
    refine record_decoded_iff proper rfl ?_
    exact required_makes fun _ => required_makes fun _ => parts_taken_makes (by simp)

instance : Formed Parameter where
  Forms written parameter :=
    RecordForm [.required "name" parameter.name,
      .required "declared_type" parameter.declaredType] 0 written
  decoded_iff := by
    rintro written proper ⟨name, declaredType⟩
    refine record_decoded_iff proper rfl ?_
    exact required_makes fun _ => required_makes fun _ => parts_taken_makes (by simp)

instance : Formed Method where
  Forms written method :=
    RecordForm [.required "name" method.name, .required "parameters" method.parameters,
      .required "return_type" method.returnType, .required "kind" method.kind] 0 written
  decoded_iff := by
    rintro written proper ⟨name, parameters, returnType, kind⟩
    refine record_decoded_iff proper rfl ?_
    exact required_makes fun _ => required_makes fun _ => required_makes fun _ =>
      required_makes fun _ => parts_taken_makes (by simp [and_assoc])

instance : Formed ClassRecord where
  Forms written record :=
    RecordForm [.required "name" record.name, .required "bases" record.bases,
      .required "attributes" record.attributes, .required "methods" record.methods] 0 written
  decoded_iff := by
    rintro written proper ⟨name, bases, attributes, methods⟩
    refine record_decoded_iff proper rfl ?_
    exact required_makes fun _ => required_makes fun _ => required_makes fun _ =>
      required_makes fun _ => parts_taken_makes (by simp [and_assoc])

instance : Formed Definition where
  Forms written definition :=
    RecordForm [.required "token" definition.token, .required "value" definition.value] 0 written
  decoded_iff := by
    rintro written proper ⟨token, value⟩
    refine record_decoded_iff proper rfl ?_
    exact required_makes fun _ => required_makes fun _ => parts_taken_makes (by simp)

-- Every field of a configuration may be missing, but only the last one in a list.
instance : Formed Configuration where
  Forms written configuration :=
    RecordForm [.optional "log_level" none configuration.logLevel,
      .optional "format" none configuration.format,
      .optional "encoding" none configuration.encoding,
      .optional "macro" [] configuration.definitions] 1 written
  decoded_iff := by
    rintro written proper ⟨logLevel, format, encoding, definitions⟩
    refine record_decoded_iff proper rfl ?_
    exact optional_makes fun _ => optional_makes fun _ => optional_makes fun _ =>
      optional_makes fun _ => parts_taken_makes (by simp [and_assoc])

instance : Faithful Definition where
  proper _ := ⟨by simp, trivial, trivial, trivial⟩
  decoded _ := rfl

section Absent

variable {α : Type} [Coded α] [Faithful α]

theorem option_proper (value : Option α) : (encode value).Proper := by
  cases value with
  | none => trivial
  | some value => exact Faithful.proper value

-- Nothing is written as null, so that a value that is there may not be.
theorem option_decoded [Formed α] (present : ∀ value : α, encode value ≠ .null)
    (value : Option α) : decode? (encode value) = some value := by
  cases value with
  | none => rfl
  | some value =>
    have held : Forms (encode value) value :=
      (decoded_iff (Faithful.proper value)).mp (Faithful.decoded value)
    have whole : Forms (encode (some value)) (some value) := ⟨present value, held⟩
    exact (decoded_iff (option_proper (some value))).mpr whole

end Absent

instance : Faithful Configuration where
  proper configuration :=
    ⟨by simp, option_proper configuration.logLevel, option_proper configuration.format,
      option_proper configuration.encoding, Faithful.proper configuration.definitions, trivial⟩
  decoded configuration := by
    have fields : decode? (encode configuration) = (do
        return Configuration.mk (← decode? (encode configuration.logLevel))
          (← decode? (encode configuration.format)) (← decode? (encode configuration.encoding))
          (← decode? (encode configuration.definitions))) := rfl
    rw [fields, option_decoded (by simp [encode]), option_decoded (by simp [encode]),
      option_decoded (by simp [encode]), Faithful.decoded]
    rfl

-- What is written for a value is decoded to it, and no two values have one text. A value may be
-- decoded from any of its forms and from nothing else, and then its text is decoded to the same
-- value and written again as it stands.
structure Canonical (α : Type) [Coded α] [Formed α] : Prop where
  restored : ∀ (layout : Layout) (value : α), ∃ document,
    Diagram.Denotes ((encode value).text layout) document ∧ decode? document = some value
  apart : ∀ (layout : Layout) {value other : α},
    (encode value).text layout = (encode other).text layout → value = other
  accepted : ∀ {written : Value}, written.Proper → ∀ {value : α},
    decode? written = some value ↔ Forms written value
  rewritten : ∀ (layout : Layout) {written : Value} {value : α}, decode? written = some value →
    ∃ document, Diagram.Denotes ((encode value).text layout) document ∧
      decode? document = some value ∧
      ∀ again : α, decode? document = some again →
        (encode again).text layout = (encode value).text layout

theorem canonical (α : Type) [Coded α] [Formed α] [Faithful α] : Canonical α := by
  have denoted (layout : Layout) (value : α) :
      Diagram.Denotes ((encode value).text layout) (encode value) :=
    Diagram.printed_denotes layout (Faithful.proper value)
  constructor
  · intro layout value
    exact ⟨encode value, denoted layout value, Faithful.decoded value⟩
  · intro layout value other same
    have documents := (denoted layout value).same (denoted layout other) same
    have read := Faithful.decoded value
    rw [documents, Faithful.decoded] at read
    exact (Option.some.inj read).symm
  · exact decoded_iff
  · intro layout _ value _
    refine ⟨encode value, denoted layout value, Faithful.decoded value, ?_⟩
    intro again read
    rw [Faithful.decoded] at read
    rw [Option.some.inj read]

theorem values_written_canonically :
    Canonical Column ∧ Canonical Table ∧ Canonical Attribute ∧ Canonical Parameter ∧
      Canonical Method ∧ Canonical MethodKind ∧ Canonical ClassRecord ∧ Canonical Edge ∧
      Canonical EdgeKind ∧ Canonical Visibility ∧ Canonical OutputFormat ∧ Canonical Definition ∧
      Canonical Configuration :=
  ⟨canonical _, canonical _, canonical _, canonical _, canonical _, canonical _, canonical _,
    canonical _, canonical _, canonical _, canonical _, canonical _, canonical _⟩

theorem configuration_rewritten :
    let written : Value := .object
      [("format", .object [("json", .null)]), ("note", .bool true), ("log_level", .string "info")]
    let configuration : Configuration := ⟨some "info", some .json, none, []⟩
    Forms written configuration ∧
      ∃ document, Diagram.Denotes
          "\x7b\"log_level\":\"info\",\"format\":\"json\",\"encoding\":null,\"macro\":[]\x7d"
          document ∧
        decode? document = some configuration := by
  intro written configuration
  obtain ⟨-, -, -, -, -, -, -, -, -, -, -, -, configurations⟩ := values_written_canonically
  have proper : written.Proper :=
    ⟨by decide, ⟨by decide, trivial, trivial⟩, trivial, trivial, trivial⟩
  have read : decode? written = some configuration := by decide
  obtain ⟨document, denoted, restored, -⟩ := configurations.rewritten .compact read
  exact ⟨(configurations.accepted proper).mp read, document, denoted, restored⟩

end SourceDiagram.Model
