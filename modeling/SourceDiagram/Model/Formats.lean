set_option autoImplicit false

namespace SourceDiagram.Model

inductive InputKind
  | schema
  | objectModel
deriving DecidableEq, Repr

namespace InputKind

def title : InputKind → String
  | schema => "schema"
  | objectModel => "object model"

def word : InputKind → String
  | schema => "schema"
  | objectModel => "object_model"

def extensions : InputKind → List String
  | schema => ["sql"]
  | objectModel => ["py", "pyi"]

def all : List InputKind := [schema, objectModel]

def ofExtension? (extension : String) : Option InputKind :=
  let lower := String.ofList (extension.toList.map Char.toLower)
  all.find? fun kind => kind.extensions.contains lower

end InputKind

def pathParts (path : List Char) : List (List Char) :=
  (path.splitOn '/').filter fun part => part ≠ [] && part ≠ ['.']

-- The extension of a file name: what follows its last dot, if anything stands before that.
def nameExtension? (name : List Char) : Option (List Char) :=
  if name = ['.', '.'] then none
  else
    let after := name.reverse.takeWhile (· != '.')
    match name.reverse.dropWhile (· != '.') with
    | _ :: _ :: _ => some after.reverse
    | _ => none

def pathExtension? (path : String) : Option String := do
  let name ← (pathParts path.toList).getLast?
  let extension ← nameExtension? name
  return String.ofList extension

def InputKind.ofPath (path : String) : Except String InputKind :=
  let extension := (pathExtension? path).getD ""
  match InputKind.ofExtension? extension with
  | some kind => .ok kind
  | none => .error (if extension.isEmpty then "" else "." ++ extension)

inductive OutputFormat
  | plantUml
  | json
deriving DecidableEq, Repr

namespace OutputFormat

def word : OutputFormat → String
  | plantUml => "plantuml"
  | json => "json"

def all : List OutputFormat := [plantUml, json]

def standard : OutputFormat := plantUml

def names : OutputFormat → List String
  | plantUml => ["plantuml", "puml", "uml"]
  | json => ["json"]

def ofName? (name : String) : Option OutputFormat :=
  let lower := String.ofList (name.toList.map Char.toLower)
  all.find? fun format => format.names.contains lower

end OutputFormat

end SourceDiagram.Model
