import SourceDiagram.Json.Document
import SourceDiagram.Model.Coding
import SourceDiagram.Model.Formats
import SourceDiagram.Model.Records
import SourceDiagram.Report

set_option autoImplicit false

namespace SourceDiagram.Diagram

open SourceDiagram.Json
open SourceDiagram.Model

def attributeView (member : Attribute) : Value :=
  .object (member.entries ++ [("visibility", encode member.visibility)])

def methodView (method : Method) : Value :=
  .object (method.entries ++
    [("visibility", encode method.visibility), ("signature", encode method.signature)])

def classView (record : ClassRecord) : Value :=
  .object
    [("name", encode record.name), ("bases", encode record.bases),
      ("attributes", .array (record.attributes.map attributeView)),
      ("methods", .array (record.methods.map methodView))]

def schemaDocument (tables : List Table) : Value :=
  .object [("kind", encode InputKind.schema.word), ("tables", encode tables)]

def objectModelDocument (records : List ClassRecord) (edges : List Edge) : Value :=
  .object
    [("kind", encode InputKind.objectModel.word), ("types", .array (records.map classView)),
      ("edges", encode edges)]

def opening : String := "@startuml"

def closing : String := "@enduml"

def directives : List String :=
  ["skinparam linetype ortho", "!pragma teoz true"]

def header (sort name : String) : String :=
  sort ++ " " ++ name ++ " \x7b"

def footer : String := "\x7d"

def columnLine (column : Column) : String :=
  "\t+ " ++ column.name ++ ": " ++ column.spec

def tableLines (table : Table) : List String :=
  ["", header "entity" table.name] ++ table.columns.map columnLine ++ [footer]

def schemaLines (tables : List Table) : List String :=
  [opening, ""] ++ directives ++ tables.flatMap tableLines ++ [closing]

def attributeLine (member : Attribute) : String :=
  let line := "  " ++ member.visibility.marker ++ " " ++ member.name
  if member.declaredType.isEmpty then line else line ++ ": " ++ member.declaredType

def methodLine (method : Method) : String :=
  let line := "  " ++ method.visibility.marker ++ " " ++ method.signature
  match method.kind.stereotype? with
  | some stereotype => line ++ " " ++ stereotype
  | none => line

def classLines (record : ClassRecord) : List String :=
  [header "class" record.name] ++ record.attributes.map attributeLine ++
    record.methods.map methodLine ++ [footer]

def edgeLine (edge : Edge) : String :=
  match edge.kind with
  | .inheritance => edge.target ++ " <|-- " ++ edge.source
  | .composition => edge.source ++ " *-- " ++ edge.target

def edgeLines (edges : List Edge) : List String :=
  EdgeKind.all.flatMap fun kind => (edges.filter fun edge => edge.kind = kind).map edgeLine

def placeholderLines : List String :=
  [opening, "' No classes found.", closing]

def objectModelLines (records : List ClassRecord) (edges : List Edge) : List String :=
  if records.isEmpty then placeholderLines
  else [opening] ++ directives ++ records.flatMap classLines ++ edgeLines edges ++ [closing]

def text (lines : List String) : String :=
  "\n".intercalate lines

def placeholder : String :=
  text placeholderLines

def schemaMarkup (tables : List Table) : String :=
  text (schemaLines tables)

def objectModelMarkup (records : List ClassRecord) (edges : List Edge) : String :=
  text (objectModelLines records edges)

def schemaEvent (tables : List Table) : Event :=
  .schemaDrawn tables.length

def objectModelEvent (records : List ClassRecord) (edges : List Edge) : Event :=
  if records.isEmpty then .placeholderDrawn else .classesDrawn records.length edges.length

end SourceDiagram.Diagram
