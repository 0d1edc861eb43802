import SourceDiagram.Syntax.Expression

set_option autoImplicit false

namespace SourceDiagram.Syntax.TypeTerm

open Reader

def ofTree (tree : SyntaxTree) : SyntaxTree :=
  .phrase .typeNode tree.text [tree]

def mayBeGeneric (keyword : Option Keyword) : Bool :=
  match keyword with
  | none => true
  | some keyword =>
    let others := [Keyword.print_, .exec_, .async_, .await_, .match_, .not_, .lambda_, .true_,
      .false_, .none_]
    !others.contains keyword

def isStarredOperand (keyword : Keyword) : Bool :=
  [Keyword.print_, .exec_, .async_, .await_, .match_, .type_, .true_, .false_, .none_].contains
    keyword

def continuesStarred (context : Context) : Lexeme → Bool
  | .mark mark =>
    match mark with
    | .leftBracket => true
    | .leftParen => true
    | .bar => false
    | mark => (Expression.arithmeticRank? mark).isSome || Expression.isComparison mark
  | .word _ (some keyword) => Expression.isInfixWord context keyword
  | _ => false

def nextType (descent : Descent) (found : List SyntaxTree) :
    Reader (List SyntaxTree ⊕ List SyntaxTree) := do
  if ← accept .bracketed .rightBracket then return .inr found
  else
    expect .bracketed .comma
    if ← accept .bracketed .rightBracket then return .inr found
    else
      let next ← descent.read (.typeTerm .bracketed true)
      return .inl (found ++ [next])

def typeParameter (descent : Descent) : Reader SyntaxTree := do
  skip
  let first ← descent.demand (.typeTerm .bracketed true)
  let types ← iterate (nextType descent) descent.limit [first]
  return .phrase .typeParameter "" types

def head (descent : Descent) (context : Context) : Reader SyntaxTree := do
  let before ← cursor
  match before.lexeme with
  | .word text keyword =>
    if mayBeGeneric keyword && before.advance.follow context = .mark .leftBracket then
      skip
      let arguments ← typeParameter descent
      return ofTree (.phrase .genericType (← textSince before)
        [.leaf .identifier text, arguments])
    else return ofTree (← descent.read (.expression context 0))
  | .mark .star =>
    match before.advance.follow .unfinished with
    | .word text keyword =>
      if keyword.any isStarredOperand ||
          continuesStarred context (before.advance.advance.follow context) then
        return ofTree (← descent.read (.expression context 0))
      else
        skip
        skip
        return ofTree (.phrase .splatType "" [.leaf .identifier text])
    | _ => return ofTree (← descent.read (.expression context 0))
  | .mark .doubleStar =>
    skip
    let name ← name
    return ofTree (.phrase .splatType "" [name])
  | _ => return ofTree (← descent.read (.expression context 0))

def extension (descent : Descent) (context : Context) (bounded : Bool) (left : SyntaxTree) :
    Reader (SyntaxTree ⊕ SyntaxTree) := do
  match ← follow context with
  | .mark .dot =>
    skip
    let member ← name
    return .inl (ofTree (.phrase .memberType "" [left, member]))
  | .mark .bar =>
    skip
    require ((← lead .unfinished) ≠ .invalid)
    let right ← head descent context
    return .inl (ofTree (.phrase .unionType "" [left, right]))
  | .mark .colon =>
    if bounded then
      skip
      let bound ← descent.demand (.typeTerm context true)
      return .inr (ofTree (.phrase .constrainedType "" [left, bound]))
    else return .inr left
  | _ => return .inr left

def type (descent : Descent) (context : Context) (bounded : Bool) : Reader SyntaxTree := do
  let first ← head descent context
  iterate (extension descent context bounded) descent.limit first

end SourceDiagram.Syntax.TypeTerm
