import SourceDiagram.Syntax.Parameter
import SourceDiagram.Syntax.Quoted

set_option autoImplicit false

namespace SourceDiagram.Syntax.Expression

open Reader

def begins : Lexeme → Bool
  | .word _ _ => true
  | .integer _ => true
  | .float _ => true
  | .quote _ => true
  | .mark mark =>
    [Mark.leftParen, .leftBracket, .leftBrace, .plus, .minus, .tilde, .star,
      .ellipsis].contains mark
  | _ => false

def conditionalRank : Rank := 1
def aliasRank : Rank := 2
def orRank : Rank := 3
def andRank : Rank := 4
def notRank : Rank := 5
def powerRank : Rank := 21

def arithmeticRank? : Mark → Option Rank
  | .bar => some 14
  | .ampersand => some 15
  | .caret => some 16
  | .shiftLeft => some 17
  | .shiftRight => some 17
  | .plus => some 18
  | .minus => some 18
  | .star => some 19
  | .at_ => some 19
  | .slash => some 19
  | .percent => some 19
  | .doubleSlash => some 19
  | .doubleStar => some powerRank
  | _ => none

def isComparison (mark : Mark) : Bool :=
  [Mark.less, .lessEqual, .equal, .notEqual, .greaterEqual, .greater, .lessGreater].contains mark

def isInfixWord (context : Context) (keyword : Keyword) : Bool :=
  [Keyword.if_, .and_, .or_, .in_, .is_, .not_, .as_, .else_].contains keyword ||
    (context.enclosed && keyword = .for_)

structure Series where
  items : List SyntaxTree
  separated : Bool

def seriesUntil (closes : Lexeme → Bool) (descent : Descent) (context : Context) :
    Reader Series := do
  let first ← descent.read (.expression context 0)
  iterate (fun (found : Series) => do
    if ← accept context .comma then
      let next ← follow context
      if begins next && !closes next then
        let item ← descent.read (.expression context 0)
        return .inl ⟨found.items ++ [item], true⟩
      else return .inr ⟨found.items, true⟩
    else return .inr found) descent.limit ⟨[first], false⟩

def series : Descent → Context → Reader Series :=
  seriesUntil fun _ => false

def Series.tree (found : Series) : SyntaxTree :=
  match found.items, found.separated with
  | [item], false => item
  | items, _ => .phrase .expressionList "" items

def yieldRest (descent : Descent) (context : Context) : Reader SyntaxTree := do
  if ← acceptWord context .from_ then
    let source ← descent.demand (.expression context 0)
    return .phrase .yieldExpression "" [source]
  else if begins (← follow context) then
    let values ← series descent context
    return .phrase .yieldExpression "" [values.tree]
  else return .leaf .yieldExpression ""

def yieldOrSeries (descent : Descent) (context : Context) : Reader SyntaxTree := do
  match (← cursor).lexeme with
  | .word _ (some .yield_) =>
    skip
    yieldRest descent context
  | _ => return (← series descent context).tree

-- The state of a string being read: the text ahead, its offset, and the expressions so far.
structure StringState where
  ahead : List Char
  offset : Nat
  formatted : Bool
  holes : List SyntaxTree

def stringLiteral (descent : Descent) : Reader SyntaxTree := do
  let before ← cursor
  match before.lexeme with
  | .quote quote =>
    iterate (fun (state : StringState) => do
      match Quoted.scan quote false 0 0 state.ahead with
      | none => failure
      | some (.close, length, after) =>
        set (Cursor.enter after (state.offset + length) before.indents false)
        let text ← textSince before
        return .inr (.phrase .stringLiteral text state.holes)
      | some (.hole, length, after) =>
        set (Cursor.enter after (state.offset + length) before.indents state.formatted)
        let hole ← descent.read (.interpolation .interpolation)
        let last ← cursor
        return .inl ⟨last.rest, last.stop, last.formatted, state.holes ++ [hole]⟩)
      descent.limit ⟨before.rest, before.stop, quote.formatted, []⟩
  | _ => failure

def strings (descent : Descent) (context : Context) : Reader SyntaxTree := do
  let before ← cursor
  let first ← stringLiteral descent
  iterate (fun (found : List SyntaxTree) => do
    match ← lead context with
    | .quote _ =>
      let next ← stringLiteral descent
      return .inl (found ++ [next])
    | _ =>
      match found with
      | [single] => return .inr single
      | several =>
        let text ← textSince before
        return .inr (.phrase .concatenatedString text several)) descent.limit [first]

def conversion? : Reader (List SyntaxTree) := do
  let here ← cursor
  match here.here with
  | '!' :: letter :: after =>
    if 'a' ≤ letter && letter ≤ 'z' then
      set (Cursor.enter after (here.start + 2) here.indents here.formatted)
      return [.leaf .typeConversion (String.ofList ['!', letter])]
    else return []
  | _ => return []

def formatSpecifier? (descent : Descent) : Reader (List SyntaxTree) := do
  let here ← cursor
  match here.here with
  | ':' :: ahead =>
    let format ← iterate (fun (state : StringState) => do
      let (length, after) := Quoted.formatText 0 state.ahead
      let offset := state.offset + length
      match after with
      | '{' :: inner =>
        set (Cursor.enter inner (offset + 1) here.indents state.formatted)
        let hole ← descent.read (.interpolation .formatExpression)
        let last ← cursor
        return .inl ⟨last.rest, last.stop, last.formatted, state.holes ++ [hole]⟩
      | '}' :: _ =>
        set (Cursor.enter after offset here.indents state.formatted)
        return .inr (.phrase .formatSpecifier "" state.holes)
      | _ => failure) descent.limit ⟨ahead, here.start + 1, here.formatted, []⟩
    return [format]
  | _ => return []

def interpolation (descent : Descent) (kind : Kind) : Reader SyntaxTree := do
  require ((← lead .unfinished) ≠ .invalid)
  let value ← yieldOrSeries descent .bracketed
  let _ ← accept .bracketed .assign
  let conversion ← conversion?
  let format ← formatSpecifier? descent
  require ((← cursor).lexeme = .mark .rightBrace)
  return .phrase kind "" (value :: conversion ++ format)

def endsElement : Lexeme → Bool
  | .mark mark => [Mark.comma, .rightParen, .rightBracket, .rightBrace].contains mark
  | _ => false

-- An element of a display or a call, and the expression it is where only expressions may stand.
structure Element where
  tree : SyntaxTree
  expression? : Option SyntaxTree

def starred (descent : Descent) : Reader Element := do
  let before ← cursor
  skip
  let value ← descent.demand (.expression .bracketed 0)
  let text ← textSince before
  return ⟨.phrase .listSplat text [value], value.starFirst? text⟩

def element (descent : Descent) : Reader Element := do
  let before ← cursor
  match before.lexeme with
  | .mark .star => starred descent
  | .mark .doubleStar =>
    modify Cursor.narrow
    starred descent
  | _ =>
    let tree ← descent.read (.expression (.elementAt before.start) 0)
    return ⟨tree, some tree⟩

def elementOrYield (descent : Descent) : Reader Element := do
  match (← cursor).lexeme with
  | .word _ (some .yield_) =>
    skip
    let tree ← yieldRest descent .bracketed
    return ⟨tree, none⟩
  | _ => element descent

def nextElement (descent : Descent) (closer : Mark) (found : List SyntaxTree) :
    Reader (List SyntaxTree ⊕ List SyntaxTree) := do
  if ← accept .bracketed closer then return .inr found
  else
    expect .bracketed .comma
    let extra ← extras
    if ← accept .bracketed closer then return .inr (found ++ extra)
    else
      let next ← elementOrYield descent
      return .inl (found ++ extra ++ [next.tree])

def elementsUntil (descent : Descent) (closer : Mark) (first : List SyntaxTree) :
    Reader (List SyntaxTree) :=
  iterate (nextElement descent closer) descent.limit first

def clauseFollows : Reader Bool := do
  match ← keyword? .bracketed with
  | some .for_ => return true
  | some .async_ =>
    return match (← cursor).advance.lexeme with
      | .word _ (some .for_) => true
      | _ => false
  | _ => return false

def target (descent : Descent) : Reader SyntaxTree := do
  match (← descent.read (.primary .unfinished)).toPattern? with
  | some pattern => return pattern
  | none => failure

def targets (descent : Descent) : Reader SyntaxTree := do
  require ((← lead .unfinished) ≠ .invalid)
  let first ← target descent
  let (items, separated) ← iterate (fun (found : List SyntaxTree × Bool) => do
    if ← accept .unfinished .comma then
      match ← lead .unfinished with
      | .word _ (some .in_) => return .inr (found.1, true)
      | lexeme =>
        require (begins lexeme)
        let next ← target descent
        return .inl (found.1 ++ [next], true)
    else return .inr found) descent.limit ([first], false)
  return match items, separated with
    | [item], false => item
    | items, _ => .phrase .patternList "" items

def sources (descent : Descent) : Reader (List SyntaxTree) := do
  let first ← descent.demand (.expression .clause 0)
  iterate (fun (found : List SyntaxTree) => do
    if ← accept .bracketed .comma then
      match ← follow .bracketed with
      | .word _ (some .for_) => return .inr found
      | .word _ (some .if_) => return .inr found
      | lexeme =>
        if begins lexeme then
          let next ← descent.read (.expression .clause 0)
          return .inl (found ++ [next])
        else return .inr found
    else return .inr found) descent.limit [first]

def forInClause (descent : Descent) : Reader SyntaxTree := do
  let _ ← acceptWord .bracketed .async_
  expectWord .bracketed .for_
  let left ← targets descent
  expectWord .unfinished .in_
  let right ← sources descent
  return .node .forInClause "" ((.left, left) :: right.map fun source => (.right, source))

def clauses (descent : Descent) : Reader (List SyntaxTree) := do
  let first ← forInClause descent
  iterate (fun (found : List SyntaxTree) => do
    if ← clauseFollows then
      let next ← forInClause descent
      return .inl (found ++ [next])
    else if ← acceptWord .bracketed .if_ then
      let condition ← descent.demand (.expression .clause 0)
      return .inl (found ++ [.phrase .ifClause "" [condition]])
    else return .inr found) descent.limit [first]

def comprehension (descent : Descent) (kind : Kind) (closer : Mark) (body : Option SyntaxTree) :
    Reader SyntaxTree := do
  match body with
  | none => failure
  | some body =>
    let clauses ← clauses descent
    expect .bracketed closer
    return .phrase kind "" (body :: clauses)

def argument (descent : Descent) : Reader Element := do
  match (← cursor).lexeme with
  | .mark .doubleStar =>
    skip
    let value ← descent.demand (.expression .bracketed 0)
    return ⟨.phrase .dictionarySplat "" [value], none⟩
  | _ =>
    let found ← element descent
    if found.tree.kind = .identifier then
      if ← accept .bracketed .assign then
        let value ← descent.demand (.expression .bracketed 0)
        return ⟨.node .keywordArgument "" [(.name, found.tree), (.value, value)], none⟩
      else return found
    else return found

def nextArgument (descent : Descent) (found : List SyntaxTree) :
    Reader (List SyntaxTree ⊕ List SyntaxTree) := do
  if ← accept .bracketed .rightParen then return .inr found
  else
    expect .bracketed .comma
    let extra ← extras
    if ← accept .bracketed .rightParen then return .inr (found ++ extra)
    else
      let next ← argument descent
      return .inl (found ++ extra ++ [next.tree])

def argumentsUntil (descent : Descent) (first : List SyntaxTree) : Reader (List SyntaxTree) :=
  iterate (nextArgument descent) descent.limit first

def argumentList (descent : Descent) (comprehended : Bool) : Reader SyntaxTree := do
  skip
  let extra ← extras
  match (← cursor).lexeme with
  | .mark .rightParen =>
    skip
    return .phrase .argumentList "" extra
  | .mark .comma =>
    skip
    expect .bracketed .rightParen
    return .phrase .argumentList "" extra
  | _ =>
    let first ← argument descent
    if comprehended && (← clauseFollows) then
      comprehension descent .generatorExpression .rightParen first.expression?
    else
      let arguments ← argumentsUntil descent (extra ++ [first.tree])
      return .phrase .argumentList "" arguments

def bound? (descent : Descent) : Reader (List SyntaxTree) := do
  if begins (← follow .bracketed) then
    let tree ← descent.read (.expression .bracketed 0)
    return [tree]
  else return []

def index (descent : Descent) : Reader SyntaxTree := do
  let start ← match (← cursor).lexeme with
    | .mark .colon => pure []
    | _ => do
      let tree ← descent.read (.expression .bracketed 0)
      pure [tree]
  if ← accept .bracketed .colon then
    let stop ← bound? descent
    let step ← if ← accept .bracketed .colon then bound? descent else pure []
    return .phrase .slice "" (start ++ stop ++ step)
  else
    match start with
    | [tree] => return tree
    | _ => failure

def nextIndex (descent : Descent) (found : List SyntaxTree) :
    Reader (List SyntaxTree ⊕ List SyntaxTree) := do
  if ← accept .bracketed .rightBracket then return .inr found
  else
    expect .bracketed .comma
    if ← accept .bracketed .rightBracket then return .inr found
    else
      let next ← index descent
      return .inl (found ++ [next])

def indices (descent : Descent) : Reader (List SyntaxTree) := do
  skip
  require ((← lead .unfinished) ≠ .invalid)
  let first ← index descent
  iterate (nextIndex descent) descent.limit [first]

def parenthesized (descent : Descent) : Reader SyntaxTree := do
  let before ← cursor
  skip
  let extra ← extras
  if ← accept .bracketed .rightParen then
    return .phrase .tupleDisplay (← textSince before) extra
  else
    let first ← elementOrYield descent
    if ← accept .bracketed .rightParen then
      let inner := first.expression?.getD first.tree
      return .phrase .parenthesizedExpression (← textSince before) (extra ++ [inner])
    else if ← clauseFollows then
      comprehension descent .generatorExpression .rightParen first.expression?
    else
      let elements ← elementsUntil descent .rightParen (extra ++ [first.tree])
      return .phrase .tupleDisplay (← textSince before) elements

def bracketed (descent : Descent) : Reader SyntaxTree := do
  let before ← cursor
  skip
  let extra ← extras
  if ← accept .bracketed .rightBracket then
    return .phrase .listDisplay (← textSince before) extra
  else
    let first ← elementOrYield descent
    if ← clauseFollows then
      comprehension descent .listComprehension .rightBracket first.expression?
    else
      let elements ← elementsUntil descent .rightBracket (extra ++ [first.tree])
      return .phrase .listDisplay (← textSince before) elements

def pairRest (descent : Descent) (key : SyntaxTree) : Reader SyntaxTree := do
  expect .bracketed .colon
  let value ← descent.demand (.expression .bracketed 0)
  return .phrase .pair "" [key, value]

def entry (descent : Descent) : Reader SyntaxTree := do
  match (← cursor).lexeme with
  | .mark .doubleStar =>
    skip
    let value ← descent.demand (.expression .bracketed 0)
    return .phrase .dictionarySplat "" [value]
  | _ =>
    let key ← descent.read (.expression .bracketed 0)
    pairRest descent key

def entriesUntil (descent : Descent) (first : List SyntaxTree) : Reader (List SyntaxTree) :=
  iterate (fun (found : List SyntaxTree) => do
    if ← accept .bracketed .rightBrace then return .inr found
    else
      expect .bracketed .comma
      if ← accept .bracketed .rightBrace then return .inr found
      else
        let next ← entry descent
        return .inl (found ++ [next])) descent.limit first

def braced (descent : Descent) : Reader SyntaxTree := do
  skip
  match (← cursor).lexeme with
  | .mark .rightBrace =>
    skip
    return .leaf .dictionaryDisplay ""
  | .mark .comma =>
    skip
    expect .bracketed .rightBrace
    return .leaf .dictionaryDisplay ""
  | .mark .doubleStar =>
    let first ← entry descent
    return .phrase .dictionaryDisplay "" (← entriesUntil descent [first])
  | _ =>
    let first ← elementOrYield descent
    match ← follow .bracketed with
    | .mark .colon =>
      match first.expression? with
      | none => failure
      | some key =>
        let pair ← pairRest descent key
        if ← clauseFollows then
          comprehension descent .dictionaryComprehension .rightBrace (some pair)
        else return .phrase .dictionaryDisplay "" (← entriesUntil descent [pair])
    | _ =>
      if ← clauseFollows then
        comprehension descent .setComprehension .rightBrace first.expression?
      else return .phrase .setDisplay "" (← elementsUntil descent .rightBrace [first.tree])

-- Read an atom: a name, a literal or a display. A starred value in parentheses that is no
-- expression is an element by itself, or else a tuple.
def atom (descent : Descent) (context : Context) : Reader SyntaxTree := do
  let before ← cursor
  match before.lexeme with
  | .word text keyword =>
    skip
    return match keyword with
      | some .true_ => .leaf .trueLiteral text
      | some .false_ => .leaf .falseLiteral text
      | some .none_ => .leaf .noneLiteral text
      | _ => .leaf .identifier text
  | .integer text =>
    skip
    return .leaf .integer text
  | .float text =>
    skip
    return .leaf .float text
  | .quote _ => strings descent context
  | .mark .ellipsis =>
    skip
    return .leaf .ellipsis "..."
  | .mark .leftParen =>
    let tree ← parenthesized descent
    if tree.isLoose then
      if context.element = some before.start then
        require (endsElement (← follow context))
        return tree
      else return .node .tupleDisplay tree.text tree.children
    else return tree
  | .mark .leftBracket => bracketed descent
  | .mark .leftBrace => braced descent
  | _ => failure

def trailer (descent : Descent) (context : Context) (before : Cursor) (tree : SyntaxTree) :
    Reader (SyntaxTree ⊕ SyntaxTree) := do
  match ← follow context with
  | .mark .dot =>
    skip
    let member ← name
    let text ← textSince before
    return .inl (.node .attribute text [(.object, tree), (.attribute, member)])
  | .mark .leftBracket =>
    let indices ← indices descent
    let text ← textSince before
    return .inl (.node .subscript text
      ((.value, tree) :: indices.map fun index => (.subscript, index)))
  | .mark .leftParen =>
    let arguments ← argumentList descent true
    return .inl (.phrase .call "" [tree, arguments])
  | _ => return .inr tree

def trailers (descent : Descent) (context : Context) (before : Cursor) (tree : SyntaxTree) :
    Reader SyntaxTree :=
  iterate (trailer descent context before) descent.limit tree

def primary (descent : Descent) (context : Context) : Reader SyntaxTree := do
  let before ← cursor
  match before.lexeme with
  | .mark .star =>
    skip
    require ((← lead .unfinished) ≠ .invalid)
    let start ← cursor
    let first ← atom descent context
    let tree ← trailers descent context start first
    match tree.starOver? (← textSince before) with
    | some starred => return starred
    | none => failure
  | _ =>
    let first ← atom descent context
    trailers descent context before first

def operand (descent : Descent) (context : Context) : Reader SyntaxTree := do
  let before ← cursor
  match before.lexeme with
  | .mark mark =>
    if [Mark.plus, .minus, .tilde].contains mark then
      skip
      let argument ← descent.demand (.arithmetic context powerRank)
      return .node .unaryOperator "" [(.operator, .mark mark.text), (.plain, argument)]
    else primary descent context
  | .word _ (some .await_) =>
    let next := before.advance.follow context
    let awaits := match next with
      | .word _ (some keyword) => !isInfixWord context keyword
      | lexeme => begins lexeme
    if awaits then
      skip
      let argument ← descent.read (.arithmetic context powerRank)
      return .phrase .awaitExpression "" [argument]
    else primary descent context
  | _ => primary descent context

def operation (descent : Descent) (context : Context) (rank : Rank) (left : SyntaxTree) :
    Reader (SyntaxTree ⊕ SyntaxTree) := do
  match ← follow context with
  | .mark mark =>
    match arithmeticRank? mark with
    | some strength =>
      if rank ≤ strength then
        skip
        let least := if strength = powerRank then strength else strength + 1
        let right ← descent.demand (.arithmetic context least)
        return .inl (.node .binaryOperator ""
          [(.left, left), (.operator, .mark mark.text), (.right, right)])
      else return .inr left
    | none => return .inr left
  | _ => return .inr left

def arithmetic (descent : Descent) (context : Context) (rank : Rank) : Reader SyntaxTree := do
  let first ← operand descent context
  iterate (operation descent context rank) descent.limit first

def comparison? (context : Context) : Reader (Option String) := do
  match ← follow context with
  | .mark mark =>
    if isComparison mark then
      skip
      return some mark.text
    else return none
  | .word _ (some .in_) =>
    skip
    return some "in"
  | .word _ (some .is_) =>
    skip
    if ← acceptWord .unfinished .not_ then return some "is not" else return some "is"
  | .word _ (some .not_) =>
    skip
    expectWord .unfinished .in_
    return some "not in"
  | _ => return none

def comparison (descent : Descent) (context : Context) : Reader SyntaxTree := do
  let first ← arithmetic descent context 0
  let operands ← iterate (fun (found : List (Role × SyntaxTree)) => do
    match ← comparison? context with
    | some operator =>
      let next ← descent.demand (.arithmetic context 0)
      return .inl (found ++ [(.operator, .mark operator), (.plain, next)])
    | none => return .inr found) descent.limit [(.plain, first)]
  return match operands with
    | [_] => first
    | _ => .node .comparisonOperator "" operands

def prefixed (descent : Descent) (context : Context) : Reader SyntaxTree := do
  match (← cursor).lexeme with
  | .word _ (some .not_) =>
    skip
    let argument ← descent.demand (.expression context notRank)
    return .phrase .notOperator "" [argument]
  | .word _ (some .lambda_) =>
    skip
    let head ← if (← follow .unfinished) = .mark .colon then pure [] else do
      let parameters ← Parameter.lambdaParameters descent
      pure [parameters]
    expect .unfinished .colon
    let body ← descent.demand (.expression context 0)
    return .phrase .lambdaExpression "" (head ++ [body])
  | _ =>
    let tree ← comparison descent context
    if tree.kind = .identifier then
      if ← accept context .walrus then
        let value ← descent.demand (.expression context conditionalRank)
        return .node .namedExpression "" [(.name, tree), (.value, value)]
      else return tree
    else return tree

def expression (descent : Descent) (context : Context) (rank : Rank) : Reader SyntaxTree := do
  let first ← prefixed descent context
  iterate (fun (left : SyntaxTree) => do
    match ← keyword? context with
    | some .if_ =>
      if rank < conditionalRank && !context.filtered then
        skip
        let condition ← descent.demand (.expression .unfinished 0)
        expectWord .unfinished .else_
        let right ← descent.demand (.expression context 0)
        return .inl (.phrase .conditionalExpression "" [left, condition, right])
      else return .inr left
    | some .as_ =>
      if rank < aliasRank then
        skip
        let right ← descent.demand (.expression context aliasRank)
        return .inl (.phrase .asPattern "" [left, .phrase .asPatternTarget "" [right]])
      else return .inr left
    | some .or_ => boolean left orRank "or"
    | some .and_ => boolean left andRank "and"
    | _ => return .inr left) descent.limit first
where
  boolean (left : SyntaxTree) (strength : Rank) (operator : String) :
      Reader (SyntaxTree ⊕ SyntaxTree) := do
    if rank < strength then
      skip
      let right ← descent.demand (.expression context strength)
      return .inl (.node .booleanOperator ""
        [(.left, left), (.operator, .mark operator), (.right, right)])
    else return .inr left

end SourceDiagram.Syntax.Expression
