import SourceDiagram.Json.Document
import SourceDiagram.Model.Formats
import SourceDiagram.Model.Records

set_option autoImplicit false

namespace SourceDiagram.Model

open SourceDiagram.Json

instance : Coded Visibility where
  encode visibility := .string visibility.word
  decode? := choose? Visibility.all Visibility.word

instance : Coded OutputFormat where
  encode format := .string format.word
  decode? := choose? OutputFormat.all OutputFormat.word

instance : Coded EdgeKind where
  encode kind := .string kind.word
  decode? := choose? EdgeKind.all EdgeKind.word

instance : Coded MethodKind where
  encode kind := .string kind.word
  decode? := choose? MethodKind.all MethodKind.word

instance : Coded Column where
  encode column := .object [("name", encode column.name), ("spec", encode column.spec)]
  decode? value :=
    (value.fields? ["name", "spec"] 0).bind <|
      takePart required? fun name =>
      takePart required? fun spec =>
      partsTaken ⟨name, spec⟩

instance : Coded Table where
  encode table := .object [("name", encode table.name), ("columns", encode table.columns)]
  decode? value :=
    (value.fields? ["name", "columns"] 0).bind <|
      takePart required? fun name =>
      takePart required? fun columns =>
      partsTaken ⟨name, columns⟩

instance : Coded Edge where
  encode edge :=
    .object [("kind", encode edge.kind), ("from", encode edge.source), ("to", encode edge.target)]
  decode? value :=
    (value.fields? ["kind", "from", "to"] 0).bind <|
      takePart required? fun kind =>
      takePart required? fun source =>
      takePart required? fun target =>
      partsTaken ⟨kind, source, target⟩

def Attribute.entries (member : Attribute) : List (String × Value) :=
  [("name", encode member.name), ("declared_type", encode member.declaredType)]

instance : Coded Attribute where
  encode member := .object member.entries
  decode? value :=
    (value.fields? ["name", "declared_type"] 0).bind <|
      takePart required? fun name =>
      takePart required? fun declared =>
      partsTaken ⟨name, declared⟩

instance : Coded Parameter where
  encode parameter :=
    .object [("name", encode parameter.name), ("declared_type", encode parameter.declaredType)]
  decode? value :=
    (value.fields? ["name", "declared_type"] 0).bind <|
      takePart required? fun name =>
      takePart required? fun declared =>
      partsTaken ⟨name, declared⟩

def Method.entries (method : Method) : List (String × Value) :=
  [("name", encode method.name), ("parameters", encode method.parameters),
    ("return_type", encode method.returnType), ("kind", encode method.kind)]

instance : Coded Method where
  encode method := .object method.entries
  decode? value :=
    (value.fields? ["name", "parameters", "return_type", "kind"] 0).bind <|
      takePart required? fun name =>
      takePart required? fun parameters =>
      takePart required? fun result =>
      takePart required? fun kind =>
      partsTaken ⟨name, parameters, result, kind⟩

instance : Coded ClassRecord where
  encode record :=
    .object [("name", encode record.name), ("bases", encode record.bases),
      ("attributes", encode record.attributes), ("methods", encode record.methods)]
  decode? value :=
    (value.fields? ["name", "bases", "attributes", "methods"] 0).bind <|
      takePart required? fun name =>
      takePart required? fun bases =>
      takePart required? fun attributes =>
      takePart required? fun methods =>
      partsTaken ⟨name, bases, attributes, methods⟩

end SourceDiagram.Model
