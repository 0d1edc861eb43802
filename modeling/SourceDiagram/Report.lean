import SourceDiagram.Model.Formats

set_option autoImplicit false

namespace SourceDiagram

inductive FileFault
  | missing
  | denied
  | notDirectory
  | isDirectory
  | nameTooLong
  | nulInName
  | notUtf8
  | other (reason : String)
deriving DecidableEq, Repr

def FileFault.text : FileFault → String
  | missing => "No such file or directory (os error 2)"
  | denied => "Permission denied (os error 13)"
  | notDirectory => "Not a directory (os error 20)"
  | isDirectory => "Is a directory (os error 21)"
  | nameTooLong => "File name too long (os error 36)"
  | nulInName => "file name contained an unexpected NUL byte"
  | notUtf8 => "stream did not contain valid UTF-8"
  | other reason => reason

inductive Fault
  | noTable
  | unknownExtension (suffix : String)
  | sourceMissing (path : String)
  | unknownFormat (name : String)
  | parserUnready (reason : String)
  | file (cause : FileFault)
  | document (reason : String)
deriving DecidableEq, Repr

def Fault.text : Fault → String
  | noTable => "Table is not found."
  | unknownExtension suffix => "Unknown extension: [" ++ suffix ++ "]"
  | sourceMissing path => "File not found: " ++ path
  | unknownFormat name => "Unknown output format: " ++ name
  | parserUnready reason => "Parser error: " ++ reason
  | file cause => "IO error: " ++ cause.text
  | document reason => "JSON error: " ++ reason

open SourceDiagram.Model

inductive Event
  | tableRead (name : String) (columns : Nat)
  | moduleRefused
  | classRead (name : String) (bases attributes methods : Nat)
  | moduleRead (classes : Nat)
  | extracted (kind : InputKind) (found : Bool) (bytes : Nat)
  | inheritanceResolved (edges : Nat)
  | compositionResolved (edges : Nat)
  | schemaDrawn (entities : Nat)
  | placeholderDrawn
  | classesDrawn (classes edges : Nat)
  | built (format : OutputFormat) (bytes : Nat)
deriving DecidableEq, Repr

namespace Event

def detail (key value : String) : String :=
  " " ++ key ++ "=" ++ value

def text : Event → String
  | tableRead name columns =>
    "SchemaExtractor.interpret" ++ detail "table" name ++ detail "columns" (toString columns)
  | moduleRefused => "ObjectModelExtractor.interpret" ++ detail "status" "syntax error"
  | classRead name bases attributes methods =>
    "ObjectModelExtractor.class" ++ detail "name" name ++ detail "bases" (toString bases) ++
      detail "attributes" (toString attributes) ++ detail "methods" (toString methods)
  | moduleRead classes =>
    "ObjectModelExtractor.interpret" ++ detail "status" "done" ++
      detail "classes" (toString classes)
  | extracted kind found bytes =>
    "UmlBuilder.extract" ++ detail "kind" kind.title ++
      detail "found" (if found then "true" else "false") ++ detail "bytes" (toString bytes)
  | inheritanceResolved edges =>
    "RelationshipResolver.inheritance" ++ detail "edges" (toString edges)
  | compositionResolved edges =>
    "RelationshipResolver.composition" ++ detail "edges" (toString edges)
  | schemaDrawn entities =>
    "PlantUmlRenderer.render_schema" ++ detail "entities" (toString entities)
  | placeholderDrawn => "PlantUmlRenderer.render_classes" ++ detail "placeholder" "true"
  | classesDrawn classes edges =>
    "PlantUmlRenderer.render_classes" ++ detail "classes" (toString classes) ++
      detail "edges" (toString edges)
  | built format bytes =>
    "UmlBuilder.build" ++ detail "format" format.word ++ detail "rendered" (toString bytes) ++
      detail "status" "done"

end Event

end SourceDiagram
