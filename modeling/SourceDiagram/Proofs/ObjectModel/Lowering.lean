import SourceDiagram.ObjectModel.Expr

set_option autoImplicit false

namespace SourceDiagram.ObjectModel

open SourceDiagram.Syntax

theorem of_tree_node (kind : Kind) (text : String) (children : List (Role × SyntaxTree)) :
    Expr.ofTree (.node kind text children) =
      Expr.assemble kind text (children.map fun child => (child.1, lower child.2)) := by
  rw [Expr.ofTree, lower, lower_all_eq_map]

section

variable (kind : Kind) (text : String) (children : List (Role × SyntaxTree))

theorem lowered_field (role : Role) :
    Lowered.field? (children.map fun child => (child.1, lower child.2)) role =
      ((SyntaxTree.node kind text children).field? role).map lower := by
  rw [Lowered.field?, SyntaxTree.field?, SyntaxTree.children_node, List.find?_map, Option.map_map,
    Option.map_map]
  rfl

theorem lowered_fields (role : Role) :
    Lowered.fields (children.map fun child => (child.1, lower child.2)) role =
      ((SyntaxTree.node kind text children).fields role).map lower := by
  rw [Lowered.fields, SyntaxTree.fields, SyntaxTree.children_node, List.filter_map, List.map_map,
    List.map_map]
  rfl

theorem lowered_all_parts :
    Lowered.parts (children.map fun child => (child.1, lower child.2)) =
      (SyntaxTree.node kind text children).parts.map lower := by
  rw [Lowered.parts, SyntaxTree.parts, SyntaxTree.children_node, List.map_map]
  have same : (Prod.snd ∘ fun child : Role × SyntaxTree => (child.1, lower child.2)) =
      lower ∘ Prod.snd := rfl
  have kept : Lowered.isPart ∘ lower = SyntaxTree.isPart := by
    funext tree
    simp [Lowered.isPart, SyntaxTree.isPart]
  rw [same, ← List.map_map, List.filter_map, kept]

end

theorem field_of_fields (tree : SyntaxTree) (role : Role) :
    tree.field? role = (tree.fields role).head? := by
  rw [SyntaxTree.field?, SyntaxTree.fields, List.head?_map, List.head?_filter]

def itemsOf (tree : SyntaxTree) : List Expr :=
  tree.parts.map Expr.ofTree

theorem lower_items (tree : SyntaxTree) : (lower tree).items = itemsOf tree := by
  cases tree with
  | node kind text children =>
    rw [lower, lower_all_eq_map, itemsOf, lowered_all_parts kind text, List.map_map]
    rfl

theorem unparse_congr {type other : Option SyntaxTree}
    (same : other.map Expr.ofTree = type.map Expr.ofTree) : unparse other = unparse type := by
  have told : ∀ tree, unparse tree = ((tree.map Expr.ofTree).map Expr.text).getD "" := by
    rintro (_ | tree) <;> rfl
  rw [told, told type, same]

def verbatimKinds : List Kind :=
  [.stringLiteral, .concatenatedString, .integer, .float, .trueLiteral, .falseLiteral, .noneLiteral,
    .ellipsis]

def isStarred (tree : SyntaxTree) : Bool :=
  tree.kind = .listSplatPattern || tree.kind = .dictionarySplatPattern

-- The texts that a tree is told by as they stand: its own if it is a name or a literal, and those of
-- its name, its label, its operator and what a type or a star is given to. What is starred has a
-- tree of its own for the text behind its stars.
structure Texts where
  own : Option String
  name : Option String
  label : Option String
  operator : Option String
  target : Option String
deriving DecidableEq

def textsOf (tree : SyntaxTree) : Texts where
  own := if tree.kind ∈ Kind.identifier :: verbatimKinds then some tree.text else none
  name := (tree.field? .name).map SyntaxTree.text
  label :=
    if tree.kind = .memberType then tree.parts[1]?.map SyntaxTree.text
    else (tree.field? .attribute).map SyntaxTree.text
  operator := (tree.field? .operator).map SyntaxTree.text
  target :=
    if isStarred tree then tree.parts.head?.map SyntaxTree.text
    else if tree.kind = .typedParameter then
      (tree.parts.head?.filter fun part => !isStarred part).map SyntaxTree.text
    else none

def Expr.formed (kind : Kind) (texts : Texts) (parts : List Expr) (fields : Role → List Expr)
    (arguments : List (List Expr)) : Expr :=
  match kind with
  | .identifier => .name (texts.own.getD "")
  | .typeNode => parts.headD (.other kind.tag)
  | .parenthesizedExpression => parts.headD (.other kind.tag)
  | .attribute =>
    match fields .object, texts.label with
    | value :: _, some label => .member value label
    | _, _ => .other kind.tag
  | .memberType =>
    match parts, texts.label with
    | [value, _], some label => .member value label
    | _, _ => .other kind.tag
  | .subscript =>
    match fields .value with
    | value :: _ => .subscript value (fields .subscript)
    | [] => .other kind.tag
  | .genericType =>
    match parts, arguments with
    | [value, _], [items] => .subscript value items
    | _, _ => .other kind.tag
  | .tupleDisplay => .tuple parts
  | .expressionList => .tuple parts
  | .listDisplay => .list parts
  | .unionType =>
    match parts with
    | [left, right] => .union left right
    | _ => .other kind.tag
  | .binaryOperator =>
    match fields .left, texts.operator, fields .right with
    | left :: _, some operator, right :: _ =>
      if operator = "|" then .union left right else .other kind.tag
    | _, _, _ => .other kind.tag
  | kind => if kind ∈ verbatimKinds then .literal (texts.own.getD "") else .other kind.tag

theorem values_of_lowered (trees : List SyntaxTree) :
    (trees.map lower).map Lowered.value = trees.map Expr.ofTree := by
  rw [List.map_map]
  rfl

theorem of_tree_formed (tree : SyntaxTree) :
    Expr.ofTree tree = Expr.formed tree.kind (textsOf tree) (itemsOf tree)
      (fun role => (tree.fields role).map Expr.ofTree) (tree.parts.tail.map itemsOf) := by
  cases tree with
  | node kind text children =>
    rw [of_tree_node]
    unfold Expr.assemble
    rw [lowered_all_parts kind text]
    simp only [lowered_field kind text, lowered_fields kind text, field_of_fields]
    rw [SyntaxTree.kind_node]
    simp only [Expr.formed, textsOf, itemsOf, field_of_fields, SyntaxTree.kind_node,
      SyntaxTree.text_node, values_of_lowered]
    -- From here on the tree is known by its kind, its parts and its fields only.
    generalize (SyntaxTree.node kind text children).parts = parts
    generalize (SyntaxTree.node kind text children).fields = fields
    split
    case h_2 => cases parts <;> rfl
    case h_3 => cases parts <;> rfl
    case h_12 =>
      rcases fields .object with _ | ⟨value, values⟩ <;>
        rcases fields .attribute with _ | ⟨label, labels⟩ <;> simp [Expr.ofTree]
    case h_13 =>
      rcases parts with _ | ⟨value, _ | ⟨label, _ | ⟨next, rest⟩⟩⟩ <;> simp [Expr.ofTree]
    case h_14 => rcases fields .value with _ | ⟨value, values⟩ <;> simp [Expr.ofTree]
    case h_15 =>
      rcases parts with _ | ⟨value, _ | ⟨arguments, _ | ⟨next, rest⟩⟩⟩ <;>
        simp [Expr.ofTree, lower_items, itemsOf]
    case h_19 =>
      rcases parts with _ | ⟨left, _ | ⟨right, _ | ⟨next, rest⟩⟩⟩ <;> simp [Expr.ofTree]
    case h_20 =>
      rcases fields .left with _ | ⟨left, lefts⟩ <;>
      rcases fields .operator with _ | ⟨operator, operators⟩ <;>
      rcases fields .right with _ | ⟨right, rights⟩ <;> simp [Expr.ofTree]
    case h_21 =>
      -- A kind without a form of its own is no kind that the other reading has one for.
      split <;> simp_all [verbatimKinds]
    all_goals rfl

structure MadeAlike (tree other : SyntaxTree) : Prop where
  kind : other.kind = tree.kind
  texts : textsOf other = textsOf tree
  items : itemsOf other = itemsOf tree
  fields : ∀ role, role ≠ .plain →
    (other.fields role).map Expr.ofTree = (tree.fields role).map Expr.ofTree
  arguments : tree.kind = .genericType →
    other.parts.tail.map itemsOf = tree.parts.tail.map itemsOf

theorem formed_congr {kind : Kind} {texts : Texts} {parts : List Expr}
    {fields others : Role → List Expr} {arguments moreArguments : List (List Expr)}
    (same : ∀ role, role ≠ .plain → others role = fields role)
    (given : kind = .genericType → moreArguments = arguments) :
    Expr.formed kind texts parts others moreArguments =
      Expr.formed kind texts parts fields arguments := by
  unfold Expr.formed
  rw [same .object nofun, same .value nofun, same .subscript nofun, same .left nofun,
    same .right nofun]
  by_cases generic : kind = .genericType
  · rw [given generic]
  · split
    case h_7 => exact absurd rfl generic
    all_goals rfl

theorem MadeAlike.expr {tree other : SyntaxTree} (alike : MadeAlike tree other) :
    Expr.ofTree other = Expr.ofTree tree := by
  rw [of_tree_formed, of_tree_formed tree, alike.kind, alike.texts, alike.items]
  exact formed_congr alike.fields alike.arguments

end SourceDiagram.ObjectModel
