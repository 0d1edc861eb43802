import SourceDiagram.ObjectModel.Description
import SourceDiagram.Report
import SourceDiagram.Syntax.Statement

set_option autoImplicit false

namespace SourceDiagram.ObjectModel

open SourceDiagram.Model
open SourceDiagram.Syntax

def isCallLike (children : List (Role × SyntaxTree)) : Bool :=
  match (SyntaxTree.node .printStatement "" children).parts with
  | [argument] => argument.kind = .parenthesizedExpression || argument.kind = .tupleDisplay
  | _ => false

def judged (parameter : SyntaxTree) : SyntaxTree :=
  if parameter.kind = .typedParameter then parameter.parts.headD parameter else parameter

-- Whether a parameter without a default follows one with a default, before any star.
def requiredAfterDefault (defaulted : Bool) : List SyntaxTree → Bool
  | [] => false
  | parameter :: rest =>
    match (judged parameter).kind with
    | .defaultParameter => requiredAfterDefault true rest
    | .typedDefaultParameter => requiredAfterDefault true rest
    | .identifier => defaulted || requiredAfterDefault defaulted rest
    | .listSplatPattern => false
    | .dictionarySplatPattern => false
    | .keywordSeparator => false
    | _ => requiredAfterDefault defaulted rest

def isRefused (kind : Kind) (children : List (Role × SyntaxTree)) : Bool :=
  match kind with
  | .execStatement => true
  | .printStatement => !isCallLike children
  | .parameters => requiredAfterDefault false (SyntaxTree.node kind "" children).parts
  | .lambdaParameters => requiredAfterDefault false (SyntaxTree.node kind "" children).parts
  | _ => false

mutual
def hasRefused : SyntaxTree → Bool
  | .node kind _ children => isRefused kind children || anyRefused children
def anyRefused : List (Role × SyntaxTree) → Bool
  | [] => false
  | (_, tree) :: rest => (tree.isPart && hasRefused tree) || anyRefused rest
end

def accepted? (text : String) : Option SyntaxTree :=
  (parse? text).filter fun module => !hasRefused module

def insertClass (records : List ClassRecord) (fresh : ClassRecord) : List ClassRecord :=
  upsert ClassRecord.name (fun _ fresh => fresh) fresh records

def classEvent (record : ClassRecord) : Event :=
  .classRead record.name record.bases.length record.attributes.length record.methods.length

def readModule (records : List ClassRecord) (module : SyntaxTree) : List ClassRecord × List Event :=
  let declared := classesOf module
  let known := declared.foldl insertClass records
  (known, declared.map classEvent ++ [.moduleRead known.length])

def interpret (records : List ClassRecord) (text : String) :
    List ClassRecord × Bool × List Event :=
  match accepted? text with
  | none => (records, false, [.moduleRefused])
  | some module =>
    let (known, events) := readModule records module
    (known, !known.isEmpty, events)

end SourceDiagram.ObjectModel
