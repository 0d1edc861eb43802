import SourceDiagram.Model.Coding
import SourceDiagram.Proofs.Json.Printing

set_option autoImplicit false

namespace SourceDiagram.Json

class Faithful (α : Type) [Coded α] : Prop where
  proper : ∀ value : α, (encode value).Proper
  decoded : ∀ value : α, decode? (encode value) = some value

section Lists

variable {α : Type} {view : α → Value}

theorem all_proper (each : ∀ item, (view item).Proper) (items : List α) :
    AllProper (items.map view) := by
  induction items with
  | nil => trivial
  | cons item items ih => exact ⟨each item, ih⟩

theorem all_decoded [Coded α] (each : ∀ item, decode? (view item) = some item) (items : List α) :
    decodeAll? (items.map view) = some items := by
  induction items with
  | nil => rfl
  | cons item items ih =>
    rw [List.map_cons, decodeAll?, each, ih]
    rfl

end Lists

instance : Faithful String where
  proper _ := trivial
  decoded _ := rfl

instance {α : Type} [Coded α] [Faithful α] : Faithful (List α) where
  proper := all_proper Faithful.proper
  decoded := all_decoded Faithful.decoded

end SourceDiagram.Json

namespace SourceDiagram.Model

open SourceDiagram.Json

instance : Faithful Visibility where
  proper _ := trivial
  decoded visibility := by cases visibility <;> rfl

instance : Faithful OutputFormat where
  proper _ := trivial
  decoded format := by cases format <;> rfl

instance : Faithful EdgeKind where
  proper _ := trivial
  decoded kind := by cases kind <;> rfl

instance : Faithful MethodKind where
  proper _ := trivial
  decoded kind := by cases kind <;> rfl

instance : Faithful Column where
  proper _ := ⟨by simp, trivial, trivial, trivial⟩
  decoded _ := rfl

instance : Faithful Table where
  proper table := ⟨by simp, trivial, Faithful.proper table.columns, trivial⟩
  decoded table := by
    have fields : decode? (encode table) = (do
        return Table.mk (← decode? (encode table.name)) (← decode? (encode table.columns))) := rfl
    rw [fields, Faithful.decoded, Faithful.decoded]
    rfl

instance : Faithful Edge where
  proper _ := ⟨by simp, trivial, trivial, trivial, trivial⟩
  decoded edge := by
    have fields : decode? (encode edge) = (do
        return Edge.mk (← decode? (encode edge.kind)) (← decode? (encode edge.source))
          (← decode? (encode edge.target))) := rfl
    rw [fields, Faithful.decoded, Faithful.decoded, Faithful.decoded]
    rfl

instance : Faithful Attribute where
  proper _ := ⟨by simp [Attribute.entries], trivial, trivial, trivial⟩
  decoded _ := rfl

instance : Faithful Parameter where
  proper _ := ⟨by simp, trivial, trivial, trivial⟩
  decoded _ := rfl

instance : Faithful Method where
  proper method :=
    ⟨by simp [Method.entries], trivial, Faithful.proper method.parameters, trivial, trivial, trivial⟩
  decoded method := by
    have fields : decode? (encode method) = (do
        return Method.mk (← decode? (encode method.name)) (← decode? (encode method.parameters))
          (← decode? (encode method.returnType)) (← decode? (encode method.kind))) := rfl
    rw [fields, Faithful.decoded, Faithful.decoded, Faithful.decoded, Faithful.decoded]
    rfl

instance : Faithful ClassRecord where
  proper record :=
    ⟨by simp, trivial, Faithful.proper record.bases, Faithful.proper record.attributes,
      Faithful.proper record.methods, trivial⟩
  decoded record := by
    have fields : decode? (encode record) = (do
        return ClassRecord.mk (← decode? (encode record.name)) (← decode? (encode record.bases))
          (← decode? (encode record.attributes)) (← decode? (encode record.methods))) := rfl
    rw [fields, Faithful.decoded, Faithful.decoded, Faithful.decoded, Faithful.decoded]
    rfl

end SourceDiagram.Model
