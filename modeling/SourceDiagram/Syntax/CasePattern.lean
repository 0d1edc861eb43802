import SourceDiagram.Syntax.Expression

set_option autoImplicit false

namespace SourceDiagram.Syntax.CasePattern

open Reader

def begins : Lexeme → Bool
  | .word _ _ => true
  | .integer _ => true
  | .float _ => true
  | .quote _ => true
  | .mark mark =>
    [Mark.minus, .star, .doubleStar, .leftParen, .leftBracket, .leftBrace].contains mark
  | _ => false

def number : Reader SyntaxTree := do
  match ← lead .unfinished with
  | .integer text =>
    skip
    return .leaf .integer text
  | .float text =>
    skip
    return .leaf .float text
  | _ => failure

def numeral (context : Context) (first : List SyntaxTree) : Reader SyntaxTree := do
  let real ← number
  match ← follow context with
  | .mark .plus =>
    skip
    let imaginary ← number
    return .phrase .complexPattern "" (first ++ [real, imaginary])
  | .mark .minus =>
    skip
    let imaginary ← number
    return .phrase .complexPattern "" (first ++ [real, imaginary])
  | _ => return real

def seriesUntil (closer : Mark) (limit : Nat) (item : Reader SyntaxTree) :
    Reader (List SyntaxTree) := do
  if ← accept .bracketed closer then return []
  else
    let first ← item
    iterate (fun (found : List SyntaxTree) => do
      if ← accept .bracketed closer then return .inr found
      else
        expect .bracketed .comma
        if ← accept .bracketed closer then return .inr found
        else
          let next ← item
          return .inl (found ++ [next])) limit [first]

def dottedName (limit : Nat) (context : Context) : Reader SyntaxTree := do
  let first ← name
  let names ← iterate (fun (found : List SyntaxTree) => do
    if ← accept context .dot then
      let next ← name
      return .inl (found ++ [next])
    else return .inr found) limit [first]
  return .phrase .dottedName "" names

def splat : Reader SyntaxTree := do
  skip
  let name ← name
  return .phrase .splatPattern "" [name]

def keyed (descent : Descent) : Reader SyntaxTree := do
  match (← cursor).lexeme with
  | .mark .doubleStar => splat
  | .mark .star => splat
  | _ =>
    let key ← descent.read (.casePattern .unfinished)
    require (key.children.all fun child =>
      !(child.2.kind = .asPattern || child.2.kind = .keywordPattern))
    expect .unfinished .colon
    let value ← descent.demand (.casePattern .bracketed)
    return .phrase .pair "" [key, value]

def single (descent : Descent) (context : Context) : Reader SyntaxTree := do
  match (← cursor).lexeme with
  | .word text keyword =>
    match keyword with
    | some .true_ =>
      skip
      return .leaf .trueLiteral text
    | some .false_ =>
      skip
      return .leaf .falseLiteral text
    | some .none_ =>
      skip
      return .leaf .noneLiteral text
    | _ =>
      if text = "_" then
        skip
        return .mark "_"
      else
        let name ← dottedName descent.limit context
        if ← accept context .leftParen then
          let inner ← seriesUntil .rightParen descent.limit
            (descent.read (.casePattern .bracketed))
          return .phrase .classPattern "" (name :: inner)
        else return name
  | .integer _ => numeral context []
  | .float _ => numeral context []
  | .mark .minus =>
    skip
    numeral context [.mark "-"]
  | .quote _ => Expression.strings descent context
  | .mark .star => splat
  | .mark .doubleStar => splat
  | .mark .leftParen =>
    skip
    return .phrase .tuplePattern ""
      (← seriesUntil .rightParen descent.limit (descent.read (.casePattern .bracketed)))
  | .mark .leftBracket =>
    skip
    return .phrase .listPattern ""
      (← seriesUntil .rightBracket descent.limit (descent.read (.casePattern .bracketed)))
  | .mark .leftBrace =>
    skip
    return .phrase .dictPattern ""
      (← seriesUntil .rightBrace descent.limit (keyed descent))
  | _ => failure

def simple (descent : Descent) (context : Context) : Reader SyntaxTree := do
  let first ← single descent context
  let joined ← iterate (fun (found : List SyntaxTree) => do
    if ← accept context .bar then
      require ((← lead .unfinished) ≠ .invalid)
      let next ← single descent context
      return .inl (found ++ [next])
    else return .inr found) descent.limit [first]
  return match joined with
    | [_] => first
    | several => .phrase .unionPattern "" several

def pattern (descent : Descent) (context : Context) : Reader SyntaxTree := do
  let here ← cursor
  let first ← match here.lexeme, here.advance.follow context with
    | .word text _, .mark .assign => do
      skip
      skip
      require ((← lead .unfinished) ≠ .invalid)
      let value ← simple descent context
      pure (.phrase .keywordPattern "" [.leaf .identifier text, value])
    | _, _ => simple descent context
  let bound ← iterate (fun (tree : SyntaxTree) => do
    if ← acceptWord context .as_ then
      let name ← name
      return .inl (.phrase .asPattern "" [tree, name])
    else return .inr tree) descent.limit first
  return .phrase .casePattern "" [bound]

end SourceDiagram.Syntax.CasePattern
