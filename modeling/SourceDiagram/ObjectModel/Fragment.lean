import SourceDiagram.ObjectModel.Expr
import SourceDiagram.Syntax.Statement

set_option autoImplicit false

namespace SourceDiagram.ObjectModel

open SourceDiagram.Syntax

def onlyStatement? (source : String) : Option SyntaxTree := do
  let module ← parse? source
  match module.named with
  | [statement] => some statement
  | _ => none

def typeExpr? (text : String) : Option Expr := do
  let statement ← onlyStatement? ("x: " ++ text ++ "\n")
  let assignment ← statement.named.head?
  let declared ← assignment.field? .declared
  return .ofTree declared

def baseExpr? (text : String) : Option Expr := do
  let statement ← onlyStatement? ("class X(" ++ text ++ "): pass\n")
  let superclasses ← statement.field? .superclasses
  let base ← superclasses.named.head?
  return .ofTree base

end SourceDiagram.ObjectModel
