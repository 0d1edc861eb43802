import SourceDiagram.Syntax.CasePattern
import SourceDiagram.Syntax.TypeTerm

set_option autoImplicit false

namespace SourceDiagram.Syntax.Statement

open Reader

def isAugmented (mark : Mark) : Bool :=
  [Mark.plusAssign, .minusAssign, .starAssign, .slashAssign, .atAssign, .doubleSlashAssign,
    .percentAssign, .doubleStarAssign, .shiftRightAssign, .shiftLeftAssign, .ampersandAssign,
    .caretAssign, .barAssign].contains mark

def targetOf? (found : Expression.Series) : Option SyntaxTree := do
  let patterns ← found.items.mapM SyntaxTree.toPattern?
  match patterns, found.separated with
  | [pattern], false => some pattern
  | patterns, _ => some (.phrase .patternList "" patterns)

def targetOf (found : Expression.Series) : Reader SyntaxTree :=
  match targetOf? found with
  | some target => pure target
  | none => failure

-- One step of a chain of assignments: what an innermost right side becomes.
abbrev Wrap := SyntaxTree → SyntaxTree

def assignment (children : List (Role × SyntaxTree)) : SyntaxTree :=
  .node .assignment "" children

def rightSide (descent : Descent) : Reader SyntaxTree :=
  iterate (fun (wraps : List Wrap) => do
    let finish (tree : SyntaxTree) : SyntaxTree := wraps.foldl (fun inner wrap => wrap inner) tree
    require ((← lead .unfinished) ≠ .invalid)
    match (← cursor).lexeme with
    | .word _ (some .yield_) =>
      skip
      let tree ← Expression.yieldRest descent .line
      return .inr (finish tree)
    | _ =>
      let found ← Expression.series descent .line
      match ← follow .line with
      | .mark .assign =>
        let left ← targetOf found
        skip
        return .inl ((fun right => assignment [(.left, left), (.right, right)]) :: wraps)
      | .mark .colon =>
        let left ← targetOf found
        skip
        let type ← descent.demand (.typeTerm .line true)
        if ← accept .line .assign then
          return .inl ((fun right =>
            assignment [(.left, left), (.declared, type), (.right, right)]) :: wraps)
        else return .inr (finish (assignment [(.left, left), (.declared, type)]))
      | .mark mark =>
        if isAugmented mark then
          let left ← targetOf found
          skip
          return .inl ((fun right => .node .augmentedAssignment ""
            [(.left, left), (.operator, .mark mark.text), (.right, right)]) :: wraps)
        else return .inr (finish found.tree)
      | _ => return .inr (finish found.tree)) descent.limit []

def expressionStatement (descent : Descent) : Reader SyntaxTree := do
  match (← cursor).lexeme with
  | .word _ (some .yield_) =>
    skip
    let tree ← Expression.yieldRest descent .line
    return .phrase .expressionStatement "" [tree]
  | _ =>
    let found ← Expression.series descent .line
    match ← follow .line with
    | .mark .assign =>
      let left ← targetOf found
      skip
      let right ← rightSide descent
      return .phrase .expressionStatement "" [assignment [(.left, left), (.right, right)]]
    | .mark .colon =>
      let left ← targetOf found
      skip
      let type ← descent.demand (.typeTerm .line true)
      if ← accept .line .assign then
        let right ← rightSide descent
        return .phrase .expressionStatement ""
          [assignment [(.left, left), (.declared, type), (.right, right)]]
      else
        return .phrase .expressionStatement "" [assignment [(.left, left), (.declared, type)]]
    | .mark mark =>
      if isAugmented mark then
        let left ← targetOf found
        skip
        let right ← rightSide descent
        return .phrase .expressionStatement "" [.node .augmentedAssignment ""
          [(.left, left), (.operator, .mark mark.text), (.right, right)]]
      else return .phrase .expressionStatement "" found.items
    | _ => return .phrase .expressionStatement "" found.items

def commaSeparated (limit : Nat) (item : Reader SyntaxTree) : Reader (List SyntaxTree) := do
  let first ← item
  iterate (fun (found : List SyntaxTree) => do
    if ← accept .line .comma then
      let next ← item
      return .inl (found ++ [next])
    else return .inr found) limit [first]

def dottedName (descent : Descent) (context : Context) : Reader SyntaxTree :=
  CasePattern.dottedName descent.limit context

def imported (descent : Descent) (context : Context) : Reader SyntaxTree := do
  let tree ← dottedName descent context
  if ← acceptWord context .as_ then
    let bound ← name
    return .phrase .aliasedImport "" [tree, bound]
  else return tree

def importList (descent : Descent) (context : Context) : Reader (List SyntaxTree) := do
  let first ← imported descent context
  iterate (fun (found : List SyntaxTree) => do
    if ← accept context .comma then
      match ← follow context with
      | .word _ _ =>
        let next ← imported descent context
        return .inl (found ++ [next])
      | _ => return .inr found
    else return .inr found) descent.limit [first]

def importTail (descent : Descent) : Reader (List SyntaxTree) := do
  if ← accept .unfinished .leftParen then
    let names ← importList descent .bracketed
    expect .bracketed .rightParen
    return names
  else importList descent .line

def dots (descent : Descent) : Reader Nat :=
  iterate (fun (count : Nat) => do
    match ← follow .unfinished with
    | .mark .dot =>
      skip
      return .inl (count + 1)
    | .mark .ellipsis =>
      skip
      return .inl (count + 3)
    | _ => return .inr count) descent.limit 0

def importSource (descent : Descent) (count : Nat) : Reader SyntaxTree := do
  if count = 0 then dottedName descent .unfinished
  else
    match ← follow .unfinished with
    | .word _ (some .import_) => return .phrase .relativeImport "" [.leaf .importPrefix ""]
    | _ =>
      let path ← dottedName descent .unfinished
      return .phrase .relativeImport "" [.leaf .importPrefix "", path]

def importFrom (descent : Descent) : Reader SyntaxTree := do
  let count ← dots descent
  let word ← keyword? .unfinished
  if count = 0 && word = some .future_ then
    skip
    expectWord .unfinished .import_
    return .phrase .futureImportStatement "" (← importTail descent)
  else
    let source ← importSource descent count
    expectWord .unfinished .import_
    if ← accept .unfinished .star then
      return .phrase .importFromStatement "" [source, .leaf .wildcardImport "*"]
    else return .phrase .importFromStatement "" (source :: (← importTail descent))

def series? (descent : Descent) : Reader (List SyntaxTree) := do
  if Expression.begins (← follow .line) then
    return [(← Expression.series descent .line).tree]
  else return []

def raised (descent : Descent) : Reader SyntaxTree := do
  let closes (lexeme : Lexeme) : Bool := lexeme.keyword? = some .from_
  let next ← follow .line
  let values ←
    if Expression.begins next && !closes next then do
      let found ← Expression.seriesUntil closes descent .line
      pure [found.tree]
    else pure []
  if ← acceptWord .line .from_ then
    let cause ← descent.demand (.expression .line 0)
    return .phrase .raiseStatement "" (values ++ [cause])
  else return .phrase .raiseStatement "" values

def printed (descent : Descent) : Reader (List SyntaxTree) := do
  require ((← lead .unfinished) ≠ .invalid)
  return (← Expression.series descent .line).items

def chevron (descent : Descent) : Reader SyntaxTree := do
  skip
  let stream ← descent.demand (.expression .line 0)
  let stream := SyntaxTree.phrase .chevron "" [stream]
  let arguments ← iterate (fun (found : List SyntaxTree) => do
    if ← accept .line .comma then
      if Expression.begins (← follow .line) then
        let next ← descent.read (.expression .line 0)
        return .inl (found ++ [next])
      else return .inr found
    else return .inr found) descent.limit [stream]
  return .phrase .printStatement "" arguments

def closed (statement : Reader SyntaxTree) : Reader SyntaxTree := do
  let tree ← statement
  match ← follow .line with
  | .lineEnd => return tree
  | .mark .semicolon => return tree
  | _ => failure

-- Whether a lexeme leaves the word that begins the line before it to be an operand only.
def isJoining (lexeme : Lexeme) : Bool :=
  lexeme = .lineEnd || lexeme.keyword?.any [Keyword.if_, .and_, .or_, .in_, .is_, .as_].contains

-- Read a `print` statement; a call or any other expression wins over it.
def printStatement (descent : Descent) : Reader SyntaxTree := do
  let next := (← cursor).advance.follow .line
  if next = .mark .shiftRight then
    skip
    chevron descent
  else if isJoining next then expressionStatement descent
  else
    closed (expressionStatement descent) <|> do
      skip
      return .phrase .printStatement "" (← printed descent)

def isExecuted (lexeme : Lexeme) : Bool :=
  match lexeme with
  | .quote _ => true
  | .word _ keyword => keyword ≠ some .not_ && !isJoining lexeme
  | _ => false

def execStatement (descent : Descent) : Reader SyntaxTree := do
  if isExecuted ((← cursor).advance.follow .line) then
    skip
    let code ← match (← cursor).lexeme with
      | .quote _ => Expression.stringLiteral descent
      | _ => name
    if ← acceptWord .line .in_ then
      let scopes ← commaSeparated descent.limit (descent.demand (.expression .line 0))
      return .phrase .execStatement "" (code :: scopes)
    else return .phrase .execStatement "" [code]
  else expressionStatement descent

def typeAlias (descent : Descent) : Reader SyntaxTree := do
  skip
  require !(isJoining (← follow .line))
  let left ← descent.demand (.typeTerm .unfinished true)
  expect .unfinished .assign
  let right ← descent.demand (.typeTerm .line true)
  return .node .typeAliasStatement "" [(.left, left), (.right, right)]

def simple (descent : Descent) : Reader SyntaxTree := do
  match (← cursor).lexeme with
  | .word _ (some keyword) =>
    match keyword with
    | .import_ =>
      skip
      return .phrase .importStatement "" (← importList descent .line)
    | .from_ =>
      skip
      importFrom descent
    | .print_ => printStatement descent
    | .exec_ => execStatement descent
    | .type_ => closed (typeAlias descent) <|> expressionStatement descent
    | .assert_ =>
      skip
      return .phrase .assertStatement ""
        (← commaSeparated descent.limit (descent.demand (.expression .line 0)))
    | .return_ =>
      skip
      return .phrase .returnStatement "" (← series? descent)
    | .del_ =>
      skip
      require ((← lead .unfinished) ≠ .invalid)
      return .phrase .deleteStatement "" [(← Expression.series descent .line).tree]
    | .raise_ =>
      skip
      raised descent
    | .pass_ =>
      skip
      return .leaf .passStatement "pass"
    | .break_ =>
      skip
      return .leaf .breakStatement "break"
    | .continue_ =>
      skip
      return .leaf .continueStatement "continue"
    | .global_ =>
      skip
      return .phrase .globalStatement "" (← commaSeparated descent.limit name)
    | .nonlocal_ =>
      skip
      return .phrase .nonlocalStatement "" (← commaSeparated descent.limit name)
    | _ => expressionStatement descent
  | _ => expressionStatement descent

def simpleLine (descent : Descent) : Reader (List SyntaxTree) := do
  let first ← simple descent
  iterate (fun (found : List SyntaxTree) => do
    match ← follow .line with
    | .lineEnd => return .inr found
    | .mark .semicolon =>
      skip
      match ← follow .line with
      | .lineEnd => return .inr found
      | _ =>
        let next ← simple descent
        return .inl (found ++ [next])
    | _ => failure) descent.limit [first]

def body (descent : Descent) : Reader SyntaxTree := do
  expect .unfinished .colon
  descent.read .suite

def clauseFollows (keyword : Keyword) : Reader Bool := do
  let here ← cursor
  if here.isDedented then return false
  else
    return match here.lexeme with
      | .word _ found => found = some keyword
      | _ => false

def elseClause? (descent : Descent) : Reader (List SyntaxTree) := do
  if ← clauseFollows .else_ then
    skip
    let body ← body descent
    return [.node .elseClause "" [(.body, body)]]
  else return []

def conditional (descent : Descent) : Reader SyntaxTree := do
  let condition ← descent.demand (.expression .unfinished 0)
  let first ← body descent
  let parts ← iterate (fun (found : List SyntaxTree) => do
    if ← clauseFollows .elif_ then
      skip
      let condition ← descent.demand (.expression .unfinished 0)
      let body ← body descent
      return .inl (found ++ [.phrase .elifClause "" [condition, body]])
    else return .inr found) descent.limit [condition, first]
  let last ← elseClause? descent
  return .phrase .ifStatement "" (parts ++ last)

def unfinishedSeries (descent : Descent) : Reader SyntaxTree := do
  require ((← lead .unfinished) ≠ .invalid)
  return (← Expression.series descent .unfinished).tree

def loop (descent : Descent) : Reader SyntaxTree := do
  let left ← Expression.targets descent
  expectWord .unfinished .in_
  let right ← unfinishedSeries descent
  let first ← body descent
  let last ← elseClause? descent
  return .node .forStatement ""
    ([(.left, left), (.right, right), (.body, first)] ++ last.map fun clause => (.plain, clause))

def whileLoop (descent : Descent) : Reader SyntaxTree := do
  let condition ← descent.demand (.expression .unfinished 0)
  let first ← body descent
  let last ← elseClause? descent
  return .phrase .whileStatement "" (condition :: first :: last)

def exceptClause (descent : Descent) : Reader SyntaxTree := do
  match ← lead .unfinished with
  | .mark .colon => return .phrase .exceptClause "" [← body descent]
  | .invalid => failure
  | _ =>
    let value ← descent.read (.expression .unfinished 0)
    let bound ← if ← accept .unfinished .comma then do
        let bound ← descent.demand (.expression .unfinished 0)
        pure [bound]
      else pure []
    let body ← body descent
    return .phrase .exceptClause "" (value :: bound ++ [body])

def exceptGroupClause (descent : Descent) : Reader SyntaxTree := do
  let value ← descent.demand (.expression .unfinished 0)
  let body ← body descent
  return .phrase .exceptGroupClause "" [value, body]

def starFollows : Reader Bool := do
  return (← cursor).rest.head? = some '*'

def handlers (descent : Descent) (grouped : Bool) : Reader (List SyntaxTree) :=
  iterate (fun (found : List SyntaxTree) => do
    if (← clauseFollows .except_) && (← starFollows) = grouped then
      skip
      if grouped then
        skip
        let clause ← exceptGroupClause descent
        return .inl (found ++ [clause])
      else
        let clause ← exceptClause descent
        return .inl (found ++ [clause])
    else return .inr found) descent.limit []

def finallyClause? (descent : Descent) : Reader (List SyntaxTree) := do
  if ← clauseFollows .finally_ then
    skip
    let body ← body descent
    return [.phrase .finallyClause "" [body]]
  else return []

def attempt (descent : Descent) : Reader SyntaxTree := do
  let first ← body descent
  let grouped := (← clauseFollows .except_) && (← starFollows)
  let handlers ← handlers descent grouped
  if handlers.isEmpty then
    match ← finallyClause? descent with
    | [] => failure
    | last => return .phrase .tryStatement "" (first :: last)
  else
    let otherwise ← elseClause? descent
    let last ← finallyClause? descent
    return .phrase .tryStatement "" (first :: handlers ++ otherwise ++ last)

def withStatement (descent : Descent) : Reader SyntaxTree := do
  require ((← lead .unfinished) ≠ .invalid)
  let found ← Expression.series descent .unfinished
  let items := found.items.map fun item => SyntaxTree.phrase .withItem "" [item]
  let body ← body descent
  return .node .withStatement "" [(.plain, .phrase .withClause "" items), (.body, body)]

def typeParameter? (descent : Descent) : Reader (List SyntaxTree) := do
  if (← follow .unfinished) = .mark .leftBracket then
    return [← TypeTerm.typeParameter descent]
  else return []

def classDefinition (descent : Descent) : Reader SyntaxTree := do
  let name ← name
  let types ← typeParameter? descent
  let bases ← if (← follow .unfinished) = .mark .leftParen then do
      let bases ← Expression.argumentList descent false
      pure [bases]
    else pure []
  let body ← body descent
  return .node .classDefinition "" ((.name, name) :: types.map (fun type => (.plain, type)) ++
    bases.map (fun bases => (.superclasses, bases)) ++ [(.body, body)])

def functionRest (descent : Descent) (before : List (Role × SyntaxTree)) (bounded : Bool) :
    Reader SyntaxTree := do
  let type ← descent.demand (.typeTerm .unfinished bounded)
  let body ← body descent
  return .node .functionDefinition "" (before ++ [(.returnType, type), (.body, body)])

-- Read what follows `def`. A colon after the result type begins the body where it can.
def functionDefinition (descent : Descent) : Reader SyntaxTree := do
  let name ← name
  let types ← typeParameter? descent
  let parameters ← Parameter.parameters descent
  let before := (.name, name) :: types.map (fun type => (.plain, type)) ++
    [(Role.parameters, parameters)]
  if ← accept .unfinished .arrow then
    functionRest descent before false <|> functionRest descent before true
  else
    let body ← body descent
    return .node .functionDefinition "" (before ++ [(.body, body)])

def decorator (descent : Descent) : Reader SyntaxTree := do
  let value ← descent.demand (.expression .line 0)
  require ((← follow .line) = .lineEnd)
  return .phrase .decorator "" [value]

def decoratedDefinition (descent : Descent) : Reader SyntaxTree := do
  skip
  let first ← decorator descent
  let decorators ← iterate (fun (found : List SyntaxTree) => do
    if ← accept .unfinished .at_ then
      let next ← decorator descent
      return .inl (found ++ [next])
    else return .inr found) descent.limit [first]
  let definition ←
    if ← acceptWord .unfinished .class_ then classDefinition descent
    else
      let _ ← acceptWord .unfinished .async_
      expectWord .unfinished .def_
      functionDefinition descent
  return .node .decoratedDefinition ""
    (decorators.map (fun decorator => (.plain, decorator)) ++ [(.definition, definition)])

def cases (descent : Descent) : Reader SyntaxTree := do
  let here ← cursor
  require here.gap.isBroken
  if here.isIndented then
    set { here with indents := here.gap.column.getD 0 :: here.indents }
    let clauses ← iterate (fun (found : List SyntaxTree) => do
      let here ← cursor
      if here.isDedented then
        set { here with indents := here.indents.tail }
        return .inr found
      else
        match here.lexeme with
        | .word _ (some .case_) =>
          skip
          require ((← lead .unfinished) ≠ .invalid)
          let first ← descent.read (.casePattern .unfinished)
          let patterns ← iterate (fun (patterns : List SyntaxTree) => do
            if ← accept .unfinished .comma then
              match ← follow .unfinished with
              | .word _ (some .if_) => return .inr patterns
              | lexeme =>
                if CasePattern.begins lexeme then
                  let next ← descent.read (.casePattern .unfinished)
                  return .inl (patterns ++ [next])
                else return .inr patterns
            else return .inr patterns) descent.limit [first]
          let guard ← if ← acceptWord .unfinished .if_ then do
              let condition ← descent.demand (.expression .unfinished 0)
              pure [SyntaxTree.phrase .ifClause "" [condition]]
            else pure []
          let body ← body descent
          return .inl (found ++ [.phrase .caseClause "" (patterns ++ guard ++ [body])])
        | _ => failure) descent.limit []
    return .phrase .block "" clauses
  else return .leaf .block ""

def matchStatement (descent : Descent) : Reader SyntaxTree := do
  skip
  require !(isJoining (← follow .line))
  let subject ← unfinishedSeries descent
  expect .unfinished .colon
  let block ← cases descent
  return .node .matchStatement "" [(.plain, subject), (.body, block)]

def asynchronous (descent : Descent) (keyword : Keyword) : Option (Reader SyntaxTree) :=
  match keyword with
  | .for_ => some (loop descent)
  | .with_ => some (withStatement descent)
  | .def_ => some (functionDefinition descent)
  | _ => none

def statements (descent : Descent) : Reader (List SyntaxTree) := do
  let here ← cursor
  match here.lexeme with
  | .mark .at_ => return [← decoratedDefinition descent]
  | .word _ (some keyword) =>
    match keyword with
    | .if_ =>
      skip
      return [← conditional descent]
    | .for_ =>
      skip
      return [← loop descent]
    | .while_ =>
      skip
      return [← whileLoop descent]
    | .try_ =>
      skip
      return [← attempt descent]
    | .with_ =>
      skip
      return [← withStatement descent]
    | .def_ =>
      skip
      return [← functionDefinition descent]
    | .class_ =>
      skip
      return [← classDefinition descent]
    | .async_ =>
      match here.advance.follow .line with
      | .word _ (some next) =>
        match asynchronous descent next with
        | some statement =>
          skip
          skip
          return [← statement]
        | none => simpleLine descent
      | _ => simpleLine descent
    | .match_ => (do return [← matchStatement descent]) <|> simpleLine descent
    | _ => simpleLine descent
  | _ => simpleLine descent

def blockLine (descent : Descent) (found : List SyntaxTree) :
    Reader (List SyntaxTree ⊕ List SyntaxTree) := do
  let here ← cursor
  if here.isDedented then
    set { here with indents := here.indents.tail }
    return .inr found
  else
    let next ← statements descent
    return .inl (found ++ here.gap.extras ++ next)

def suite (descent : Descent) : Reader SyntaxTree := do
  let here ← cursor
  if here.isIndented then
    set { here with indents := here.gap.column.getD 0 :: here.indents }
    let found ← iterate (blockLine descent) descent.limit []
    return .phrase .block "" found
  else if here.gap.isBroken then return .leaf .block ""
  else
    let found ← simpleLine descent
    return .phrase .block "" found

def moduleLine (descent : Descent) (found : List SyntaxTree) :
    Reader (List SyntaxTree ⊕ SyntaxTree) := do
  let here ← cursor
  if here.lexeme = .ending then
    return .inr (.phrase .module "" (found ++ here.gap.extras))
  else
    let next ← statements descent
    return .inl (found ++ here.gap.extras ++ next)

def module (descent : Descent) : Reader SyntaxTree :=
  iterate (moduleLine descent) descent.limit []

end SourceDiagram.Syntax.Statement

namespace SourceDiagram.Syntax

def Descent.phrase (descent : Descent) : Phrase → Reader SyntaxTree
  | .expression context rank => Expression.expression descent context rank
  | .arithmetic context rank => Expression.arithmetic descent context rank
  | .primary context => Expression.primary descent context
  | .typeTerm context bounded => TypeTerm.type descent context bounded
  | .casePattern context => CasePattern.pattern descent context
  | .interpolation kind => Expression.interpolation descent kind
  | .suite => Statement.suite descent

def readNested (limit : Nat) : Nat → Phrase → Reader SyntaxTree
  | 0, _ => failure
  | depth + 1, phrase => Descent.phrase ⟨limit, readNested limit depth⟩ phrase

-- The descent into a text of some length: every phrase passes a character or two levels.
def Descent.ofLength (length : Nat) : Descent :=
  ⟨length + 2, readNested (length + 2) (3 * (length + 2))⟩

def parse? (text : String) : Option SyntaxTree :=
  let cs := text.toList
  ((Statement.module (Descent.ofLength cs.length)).run (Cursor.ofText cs)).map Prod.fst

end SourceDiagram.Syntax
