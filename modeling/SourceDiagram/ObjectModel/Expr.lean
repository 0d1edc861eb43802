import SourceDiagram.Syntax.Tree

set_option autoImplicit false

namespace SourceDiagram.ObjectModel

open SourceDiagram.Syntax

inductive Expr where
  | name (text : String)
  | member (value : Expr) (label : String)
  | subscript (value : Expr) (arguments : List Expr)
  | tuple (items : List Expr)
  | list (items : List Expr)
  | union (left right : Expr)
  | literal (text : String)
  | other (tag : String)
deriving Repr, Inhabited

mutual
def Expr.text : Expr → String
  | .name written => written
  | .member value label => value.text ++ "." ++ label
  | .subscript value arguments => value.text ++ "[" ++ joined arguments ++ "]"
  | .tuple items => joined items
  | .list items => "[" ++ joined items ++ "]"
  | .union left right => left.text ++ " | " ++ right.text
  | .literal written => written
  | .other tag => tag
def joined : List Expr → String
  | [] => ""
  | [item] => item.text
  | item :: rest => item.text ++ ", " ++ joined rest
end

structure Lowered where
  kind : Kind
  text : String
  value : Expr
  items : List Expr

namespace Lowered

def isPart (lowered : Lowered) : Bool :=
  lowered.kind != .token && !lowered.kind.isExtra

def parts (children : List (Role × Lowered)) : List Lowered :=
  (children.map Prod.snd).filter isPart

def field? (children : List (Role × Lowered)) (role : Role) : Option Lowered :=
  (children.find? fun child => child.1 = role).map Prod.snd

def fields (children : List (Role × Lowered)) (role : Role) : List Lowered :=
  (children.filter fun child => child.1 = role).map Prod.snd

end Lowered

def Expr.assemble (kind : Kind) (text : String) (children : List (Role × Lowered)) : Expr :=
  let parts := Lowered.parts children
  match kind with
  | .identifier => .name text
  | .typeNode => inner kind parts
  | .parenthesizedExpression => inner kind parts
  | .stringLiteral => .literal text
  | .concatenatedString => .literal text
  | .integer => .literal text
  | .float => .literal text
  | .trueLiteral => .literal text
  | .falseLiteral => .literal text
  | .noneLiteral => .literal text
  | .ellipsis => .literal text
  | .attribute =>
    match Lowered.field? children .object, Lowered.field? children .attribute with
    | some value, some label => .member value.value label.text
    | _, _ => .other kind.tag
  | .memberType =>
    match parts with
    | [value, label] => .member value.value label.text
    | _ => .other kind.tag
  | .subscript =>
    match Lowered.field? children .value with
    | some value =>
      .subscript value.value ((Lowered.fields children .subscript).map Lowered.value)
    | none => .other kind.tag
  | .genericType =>
    match parts with
    | [value, arguments] => .subscript value.value arguments.items
    | _ => .other kind.tag
  | .tupleDisplay => .tuple (parts.map Lowered.value)
  | .expressionList => .tuple (parts.map Lowered.value)
  | .listDisplay => .list (parts.map Lowered.value)
  | .unionType =>
    match parts with
    | [left, right] => .union left.value right.value
    | _ => .other kind.tag
  | .binaryOperator =>
    match Lowered.field? children .left, Lowered.field? children .operator,
      Lowered.field? children .right with
    | some left, some operator, some right =>
      if operator.text = "|" then .union left.value right.value else .other kind.tag
    | _, _, _ => .other kind.tag
  | kind => .other kind.tag
where
  inner (kind : Kind) (parts : List Lowered) : Expr :=
    match parts with
    | part :: _ => part.value
    | [] => .other kind.tag

mutual
def lower : SyntaxTree → Lowered
  | .node kind text children =>
    let lowered := lowerAll children
    ⟨kind, text, .assemble kind text lowered, (Lowered.parts lowered).map Lowered.value⟩
def lowerAll : List (Role × SyntaxTree) → List (Role × Lowered)
  | [] => []
  | (role, tree) :: rest => (role, lower tree) :: lowerAll rest
end

def Expr.ofTree (tree : SyntaxTree) : Expr :=
  (lower tree).value

def unparse (tree : Option SyntaxTree) : String :=
  match tree with
  | some tree => (Expr.ofTree tree).text
  | none => ""

theorem lower_all_eq_map (children : List (Role × SyntaxTree)) :
    lowerAll children = children.map fun child => (child.1, lower child.2) := by
  induction children with
  | nil => rfl
  | cons head rest ih => simp only [lowerAll, List.map_cons, ih]

@[simp] theorem lower_kind (tree : SyntaxTree) : (lower tree).kind = tree.kind := by
  cases tree
  rw [lower]
  rfl

@[simp] theorem lower_text (tree : SyntaxTree) : (lower tree).text = tree.text := by
  cases tree
  rw [lower]
  rfl

end SourceDiagram.ObjectModel
