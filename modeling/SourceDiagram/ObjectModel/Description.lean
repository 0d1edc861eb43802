import SourceDiagram.Model.Records
import SourceDiagram.ObjectModel.Expr

set_option autoImplicit false

namespace SourceDiagram.ObjectModel

open SourceDiagram.Model
open SourceDiagram.Syntax

mutual
def chain : SyntaxTree → List SyntaxTree
  | .node kind text children => .node kind text children :: chainRight children
def chainRight : List (Role × SyntaxTree) → List SyntaxTree
  | [] => []
  | (role, tree) :: rest =>
    if role = .right then if tree.kind = .assignment then chain tree else []
    else chainRight rest
end

def plainTarget? (assignment : SyntaxTree) : Option String := do
  let left ← assignment.field? .left
  if left.kind = .identifier then some left.text else none

def selfTarget? (assignment : SyntaxTree) : Option String := do
  let left ← assignment.field? .left
  if left.kind = .attribute then
    let object ← left.field? .object
    if object.kind = .identifier && object.text = "self" then
      let member ← left.field? .attribute
      some member.text
    else none
  else none

def classSights (assignment : SyntaxTree) : List Attribute :=
  match assignment.field? .declared with
  | some type => (plainTarget? assignment).toList.map fun name => ⟨name, unparse (some type)⟩
  | none => (chain assignment).filterMap fun link =>
      (plainTarget? link).map fun name => ⟨name, ""⟩

def bodySights (body : List SyntaxTree) : List Attribute :=
  (body.filter fun statement => statement.kind = .expressionStatement).flatMap fun statement =>
    (statement.parts.filter fun part => part.kind = .assignment).flatMap classSights

def queueSize : List SyntaxTree → Nat
  | [] => 0
  | tree :: queue => tree.size + queueSize queue

theorem queue_size_append (front back : List SyntaxTree) :
    queueSize (front ++ back) = queueSize front + queueSize back := by
  induction front with
  | nil => simp [queueSize]
  | cons tree queue ih => simp only [List.cons_append, queueSize, ih]; omega

theorem parts_size_lt (tree : SyntaxTree) : queueSize tree.parts < tree.size := by
  cases tree with
  | node kind text children =>
    rw [SyntaxTree.size]
    apply Nat.lt_succ_of_le
    simp only [SyntaxTree.parts, SyntaxTree.children_node]
    induction children with
    | nil => simp [queueSize, forestSize]
    | cons head rest ih =>
      simp only [List.map_cons, List.filter_cons, forestSize]
      split
      · simp only [queueSize] at ih ⊢
        omega
      · omega

-- The outermost assignments of the trees in a queue, level by level.
def outermost : List SyntaxTree → List SyntaxTree
  | [] => []
  | tree :: queue =>
    if tree.kind = .assignment then tree :: outermost queue
    else outermost (queue ++ tree.parts)
termination_by queue => queueSize queue
decreasing_by
  · have := SyntaxTree.size_pos tree
    simp only [queueSize]
    omega
  · have := parts_size_lt tree
    simp only [queue_size_append, queueSize]
    omega

def methodSights (assignment : SyntaxTree) : List Attribute :=
  let type := unparse (assignment.field? .declared)
  (chain assignment).filterMap fun link => (selfTarget? link).map fun name => ⟨name, type⟩

def selfSights (function : SyntaxTree) : List Attribute :=
  (outermost [function]).flatMap methodSights

def decoratorName (expression : SyntaxTree) : String :=
  if expression.kind = .identifier then expression.text
  else if expression.kind = .attribute then
    match expression.field? .attribute with
    | some member => member.text
    | none => ""
  else unparse (some expression)

def methodKind (decorators : List SyntaxTree) : MethodKind :=
  let names := decorators.filterMap fun decorator => decorator.parts.head?.map decoratorName
  if "classmethod" ∈ names then .classMethod
  else if "staticmethod" ∈ names then .staticMethod
  else .instanceMethod

def parameterName (tree : SyntaxTree) : String :=
  let inner := match tree.parts with
    | part :: _ => part.text
    | [] => ""
  match tree.kind with
  | .listSplatPattern => "*" ++ inner
  | .dictionarySplatPattern => "**" ++ inner
  | _ => tree.text

def parameter? (tree : SyntaxTree) : Option Parameter :=
  match tree.kind with
  | .identifier => some ⟨parameterName tree, ""⟩
  | .listSplatPattern => some ⟨parameterName tree, ""⟩
  | .dictionarySplatPattern => some ⟨parameterName tree, ""⟩
  | .typedParameter =>
    tree.parts.head?.map fun target => ⟨parameterName target, unparse (tree.field? .declared)⟩
  | .defaultParameter => named tree
  | .typedDefaultParameter => named tree
  | _ => none
where
  named (tree : SyntaxTree) : Option Parameter :=
    (tree.field? .name).map fun name => ⟨parameterName name, unparse (tree.field? .declared)⟩

def withoutReceiver (kind : MethodKind) (parameters : List Parameter) : List Parameter :=
  match kind.receiver?, parameters with
  | some receiver, first :: rest => if first.name = receiver then rest else first :: rest
  | _, parameters => parameters

def methodOf (function : SyntaxTree) (decorators : List SyntaxTree) : Method :=
  let kind := methodKind decorators
  let name := match function.field? .name with
    | some name => name.text
    | none => ""
  let parameters := match function.field? .parameters with
    | some parameters => parameters.parts.filterMap parameter?
    | none => []
  { name, kind
    parameters := withoutReceiver kind parameters
    returnType := unparse (function.field? .returnType) }

def definition? (kind : Kind) (statement : SyntaxTree) : Option SyntaxTree :=
  if statement.kind = kind then some statement
  else if statement.kind = .decoratedDefinition then
    (statement.field? .definition).filter fun inner => inner.kind = kind
  else none

def decoratorsOf (statement : SyntaxTree) : List SyntaxTree :=
  if statement.kind = .decoratedDefinition then
    statement.parts.filter fun part => part.kind = .decorator
  else []

def baseName? (tree : SyntaxTree) : Option String :=
  let base := Expr.ofTree tree
  match base with
  | .name _ => some base.text
  | .member _ _ => some base.text
  | .subscript _ _ => some base.text
  | _ => none

def basesOf (definition : SyntaxTree) : List String :=
  match definition.field? .superclasses with
  | some superclasses => superclasses.parts.filterMap baseName?
  | none => []

def functionsOf (body : List SyntaxTree) : List (SyntaxTree × List SyntaxTree) :=
  body.filterMap fun statement =>
    (definition? .functionDefinition statement).map fun function =>
      (function, decoratorsOf statement)

def sightsOf (body : List SyntaxTree) : List Attribute :=
  bodySights body ++ (functionsOf body).flatMap fun (function, _) => selfSights function

def describe? (definition : SyntaxTree) : Option ClassRecord := do
  let name ← definition.field? .name
  let body ← definition.field? .body
  let bare : ClassRecord :=
    { name := name.text
      bases := basesOf definition
      attributes := []
      methods := (functionsOf body.parts).map fun (function, decorators) =>
        methodOf function decorators }
  return (sightsOf body.parts).foldl ClassRecord.addAttribute bare

def classesOf (module : SyntaxTree) : List ClassRecord :=
  module.parts.filterMap fun statement => do
    let definition ← definition? .classDefinition statement
    describe? definition

end SourceDiagram.ObjectModel
