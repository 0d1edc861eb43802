import SourceDiagram.Syntax.Reader
import SourceDiagram.Syntax.Tree

set_option autoImplicit false

namespace SourceDiagram.Syntax.SyntaxTree

def isPlace (tree : SyntaxTree) : Bool :=
  [Kind.identifier, .attribute, .subscript].contains tree.kind

mutual
def toPattern? : SyntaxTree → Option SyntaxTree
  | .node kind text children =>
    match kind with
    | .identifier => some (.node kind text children)
    | .attribute => some (.node kind text children)
    | .subscript => some (.node kind text children)
    | .listSplat =>
      if children.any fun child => child.2.isPlace then
        some (.node .listSplatPattern text children)
      else none
    | .parenthesizedExpression => (toPatterns? children).map (.node .tuplePattern text)
    | .tupleDisplay => (toPatterns? children).map (.node .tuplePattern text)
    | .listDisplay => (toPatterns? children).map (.node .listPattern text)
    | _ => none
def toPatterns? : List (Role × SyntaxTree) → Option (List (Role × SyntaxTree))
  | [] => some []
  | (role, tree) :: rest => do
    let pattern ← if tree.kind.isExtra then some tree else toPattern? tree
    let patterns ← toPatterns? rest
    some ((role, pattern) :: patterns)
end

-- The primary under a star: the star reaches over the last name or index.
def starOver? (text : String) : SyntaxTree → Option SyntaxTree
  | .node .call spanned [(first, function), arguments] => do
    let starred ← starOver? text function
    some (.node .call spanned [(first, starred), arguments])
  | tree => if tree.isPlace then some (.phrase .listSplat text [tree]) else none

def starFirst? (text : String) : SyntaxTree → Option SyntaxTree
  | .node kind spanned ((role, first) :: rest) =>
    if [Kind.binaryOperator, .comparisonOperator, .booleanOperator, .conditionalExpression,
        .asPattern].contains kind then
      (starFirst? text first).map fun starred => .node kind spanned ((role, starred) :: rest)
    else starOver? text (.node kind spanned ((role, first) :: rest))
  | tree => starOver? text tree

def isLoose : SyntaxTree → Bool
  | .node kind _ [(_, inner)] =>
    match kind with
    | .parenthesizedExpression => inner.isLoose
    | .listSplat => !inner.isPlace
    | _ => false
  | _ => false

end SourceDiagram.Syntax.SyntaxTree

namespace SourceDiagram.Syntax.Parameter

open Reader

def context (typed : Bool) : Context :=
  if typed then .bracketed else .unfinished

def beginsPlace : Lexeme → Bool
  | .word _ _ => true
  | .integer _ => true
  | .float _ => true
  | .quote _ => true
  | .mark mark => [Mark.leftParen, .leftBracket, .leftBrace, .ellipsis].contains mark
  | _ => false

def gathered (descent : Descent) (typed : Bool) (kind : Kind) (before : Cursor) :
    Reader SyntaxTree := do
  let place ← descent.demand (.primary (context typed))
  require place.isPlace
  return .phrase kind (← textSince before) [place]

def typeRest (descent : Descent) (typed : Bool) (tree : SyntaxTree) : Reader SyntaxTree := do
  if typed then
    if ← accept .bracketed .colon then
      let type ← descent.demand (.typeTerm .bracketed true)
      return .node .typedParameter "" [(.plain, tree), (.declared, type)]
    else return tree
  else return tree

def defaultRest (descent : Descent) (typed : Bool) (tree : SyntaxTree) : Reader SyntaxTree := do
  if ← accept (context typed) .assign then
    let value ← descent.demand (.expression (context typed) 0)
    return match tree with
      | .node .typedParameter _ [(_, name), type] =>
        .node .typedDefaultParameter "" [(.name, name), type, (.value, value)]
      | tree => .node .defaultParameter "" [(.name, tree), (.value, value)]
  else return tree

def parameter (descent : Descent) (typed : Bool) : Reader SyntaxTree := do
  let before ← cursor
  match before.lexeme with
  | .word text _ =>
    skip
    let tree ← typeRest descent typed (.leaf .identifier text)
    defaultRest descent typed tree
  | .mark .star =>
    skip
    if beginsPlace (← lead (context typed)) then
      let tree ← gathered descent typed .listSplatPattern before
      typeRest descent typed tree
    else return .leaf .keywordSeparator "*"
  | .mark .doubleStar =>
    skip
    let tree ← gathered descent typed .dictionarySplatPattern before
    typeRest descent typed tree
  | .mark .slash =>
    skip
    return .leaf .positionalSeparator "/"
  | .mark .leftParen =>
    match (← descent.read (.primary (context typed))).toPattern? with
    | some pattern =>
      require (pattern.kind = .tuplePattern)
      defaultRest descent typed pattern
    | none => failure
  | _ => failure

def begins : Lexeme → Bool
  | .word _ _ => true
  | .mark mark => [Mark.star, .doubleStar, .slash, .leftParen].contains mark
  | _ => false

def nextParameter (descent : Descent) (typed : Bool) (found : List SyntaxTree) :
    Reader (List SyntaxTree ⊕ List SyntaxTree) := do
  if ← accept (context typed) .comma then
    if begins (← follow (context typed)) then
      let next ← parameter descent typed
      return .inl (found ++ [next])
    else return .inr found
  else return .inr found

def series (descent : Descent) (typed : Bool) : Reader (List SyntaxTree) := do
  let first ← parameter descent typed
  iterate (nextParameter descent typed) descent.limit [first]

def lambdaParameters (descent : Descent) : Reader SyntaxTree := do
  require ((← lead .unfinished) ≠ .invalid)
  return .phrase .lambdaParameters "" (← series descent false)

def parameters (descent : Descent) : Reader SyntaxTree := do
  expect .unfinished .leftParen
  if ← accept .bracketed .rightParen then return .leaf .parameters ""
  else
    let found ← series descent true
    expect .bracketed .rightParen
    return .phrase .parameters "" found

end SourceDiagram.Syntax.Parameter
