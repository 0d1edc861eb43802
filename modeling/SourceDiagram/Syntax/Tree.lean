set_option autoImplicit false

namespace SourceDiagram.Syntax

inductive Kind
  | module | comment | lineContinuation | token
  -- statements
  | importStatement | futureImportStatement | importFromStatement | relativeImport | importPrefix
  | dottedName | aliasedImport | wildcardImport
  | printStatement | chevron | execStatement | assertStatement | expressionStatement
  | returnStatement | deleteStatement | raiseStatement | passStatement | breakStatement
  | continueStatement | globalStatement | nonlocalStatement | typeAliasStatement
  | assignment | augmentedAssignment
  | ifStatement | elifClause | elseClause | forStatement | whileStatement
  | tryStatement | exceptClause | exceptGroupClause | finallyClause
  | withStatement | withClause | withItem
  | matchStatement | caseClause
  | functionDefinition | classDefinition | decoratedDefinition | decorator | block
  -- parameters and arguments
  | parameters | lambdaParameters | defaultParameter | typedParameter | typedDefaultParameter
  | keywordSeparator | positionalSeparator
  | argumentList | keywordArgument
  -- targets and patterns
  | listSplatPattern | dictionarySplatPattern | tuplePattern | listPattern | patternList
  | casePattern | unionPattern | dictPattern | keywordPattern | splatPattern | classPattern
  | complexPattern
  -- types
  | typeNode | splatType | genericType | unionType | constrainedType | memberType | typeParameter
  -- expressions
  | identifier | integer | float | trueLiteral | falseLiteral | noneLiteral | ellipsis
  | stringLiteral | concatenatedString | interpolation | typeConversion | formatSpecifier
  | formatExpression
  | attribute | subscript | slice | call | awaitExpression
  | unaryOperator | binaryOperator | comparisonOperator | notOperator | booleanOperator
  | conditionalExpression | lambdaExpression | namedExpression | asPattern | asPatternTarget
  | yieldExpression
  | parenthesizedExpression | tupleDisplay | listDisplay | setDisplay | dictionaryDisplay | pair
  | expressionList | listSplat | dictionarySplat
  | listComprehension | setComprehension | dictionaryComprehension | generatorExpression
  | forInClause | ifClause
deriving DecidableEq, Repr

-- The name a kind has in text, where an expression has no spelling of its own.
def Kind.tag : Kind → String
  | .module => "Module"
  | .comment => "Comment"
  | .lineContinuation => "LineContinuation"
  | .token => "Token"
  | .importStatement => "ImportStatement"
  | .futureImportStatement => "FutureImportStatement"
  | .importFromStatement => "ImportFromStatement"
  | .relativeImport => "RelativeImport"
  | .importPrefix => "ImportPrefix"
  | .dottedName => "DottedName"
  | .aliasedImport => "AliasedImport"
  | .wildcardImport => "WildcardImport"
  | .printStatement => "PrintStatement"
  | .chevron => "Chevron"
  | .execStatement => "ExecStatement"
  | .assertStatement => "AssertStatement"
  | .expressionStatement => "ExpressionStatement"
  | .returnStatement => "ReturnStatement"
  | .deleteStatement => "DeleteStatement"
  | .raiseStatement => "RaiseStatement"
  | .passStatement => "PassStatement"
  | .breakStatement => "BreakStatement"
  | .continueStatement => "ContinueStatement"
  | .globalStatement => "GlobalStatement"
  | .nonlocalStatement => "NonlocalStatement"
  | .typeAliasStatement => "TypeAliasStatement"
  | .assignment => "Assignment"
  | .augmentedAssignment => "AugmentedAssignment"
  | .ifStatement => "IfStatement"
  | .elifClause => "ElifClause"
  | .elseClause => "ElseClause"
  | .forStatement => "ForStatement"
  | .whileStatement => "WhileStatement"
  | .tryStatement => "TryStatement"
  | .exceptClause => "ExceptClause"
  | .exceptGroupClause => "ExceptGroupClause"
  | .finallyClause => "FinallyClause"
  | .withStatement => "WithStatement"
  | .withClause => "WithClause"
  | .withItem => "WithItem"
  | .matchStatement => "MatchStatement"
  | .caseClause => "CaseClause"
  | .functionDefinition => "FunctionDefinition"
  | .classDefinition => "ClassDefinition"
  | .decoratedDefinition => "DecoratedDefinition"
  | .decorator => "Decorator"
  | .block => "Block"
  | .parameters => "Parameters"
  | .lambdaParameters => "LambdaParameters"
  | .defaultParameter => "DefaultParameter"
  | .typedParameter => "TypedParameter"
  | .typedDefaultParameter => "TypedDefaultParameter"
  | .keywordSeparator => "KeywordSeparator"
  | .positionalSeparator => "PositionalSeparator"
  | .argumentList => "ArgumentList"
  | .keywordArgument => "KeywordArgument"
  | .listSplatPattern => "ListSplatPattern"
  | .dictionarySplatPattern => "DictionarySplatPattern"
  | .tuplePattern => "TuplePattern"
  | .listPattern => "ListPattern"
  | .patternList => "PatternList"
  | .casePattern => "CasePattern"
  | .unionPattern => "UnionPattern"
  | .dictPattern => "DictPattern"
  | .keywordPattern => "KeywordPattern"
  | .splatPattern => "SplatPattern"
  | .classPattern => "ClassPattern"
  | .complexPattern => "ComplexPattern"
  | .typeNode => "Type"
  | .splatType => "SplatType"
  | .genericType => "GenericType"
  | .unionType => "UnionType"
  | .constrainedType => "ConstrainedType"
  | .memberType => "MemberType"
  | .typeParameter => "TypeParameter"
  | .identifier => "Identifier"
  | .integer => "Integer"
  | .float => "Float"
  | .trueLiteral => "True"
  | .falseLiteral => "False"
  | .noneLiteral => "None"
  | .ellipsis => "Ellipsis"
  | .stringLiteral => "String"
  | .concatenatedString => "ConcatenatedString"
  | .interpolation => "Interpolation"
  | .typeConversion => "TypeConversion"
  | .formatSpecifier => "FormatSpecifier"
  | .formatExpression => "FormatExpression"
  | .attribute => "Attribute"
  | .subscript => "Subscript"
  | .slice => "Slice"
  | .call => "Call"
  | .awaitExpression => "Await"
  | .unaryOperator => "UnaryOperator"
  | .binaryOperator => "BinaryOperator"
  | .comparisonOperator => "ComparisonOperator"
  | .notOperator => "NotOperator"
  | .booleanOperator => "BooleanOperator"
  | .conditionalExpression => "ConditionalExpression"
  | .lambdaExpression => "Lambda"
  | .namedExpression => "NamedExpression"
  | .asPattern => "AsPattern"
  | .asPatternTarget => "AsPatternTarget"
  | .yieldExpression => "Yield"
  | .parenthesizedExpression => "ParenthesizedExpression"
  | .tupleDisplay => "Tuple"
  | .listDisplay => "List"
  | .setDisplay => "Set"
  | .dictionaryDisplay => "Dictionary"
  | .pair => "Pair"
  | .expressionList => "ExpressionList"
  | .listSplat => "ListSplat"
  | .dictionarySplat => "DictionarySplat"
  | .listComprehension => "ListComprehension"
  | .setComprehension => "SetComprehension"
  | .dictionaryComprehension => "DictionaryComprehension"
  | .generatorExpression => "GeneratorExpression"
  | .forInClause => "ForInClause"
  | .ifClause => "IfClause"

def Kind.isExtra : Kind → Bool
  | .comment => true
  | .lineContinuation => true
  | _ => false

inductive Role
  | plain | name | superclasses | body | left | right | declared | definition | parameters
  | returnType | object | attribute | value | subscript | operator
deriving DecidableEq, Repr

inductive SyntaxTree where
  | node (kind : Kind) (text : String) (children : List (Role × SyntaxTree))
deriving Repr

namespace SyntaxTree

instance : Inhabited SyntaxTree := ⟨.node .module "" []⟩

def kind : SyntaxTree → Kind
  | .node kind _ _ => kind

def text : SyntaxTree → String
  | .node _ text _ => text

def children : SyntaxTree → List (Role × SyntaxTree)
  | .node _ _ children => children

-- Whether a tree is a part of the phrase it stands in: neither extra nor a bare token.
def isPart (tree : SyntaxTree) : Bool :=
  tree.kind != .token && !tree.kind.isExtra

def parts (tree : SyntaxTree) : List SyntaxTree :=
  (tree.children.map Prod.snd).filter isPart

def named (tree : SyntaxTree) : List SyntaxTree :=
  (tree.children.map Prod.snd).filter fun child => child.kind != .token

def field? (tree : SyntaxTree) (role : Role) : Option SyntaxTree :=
  (tree.children.find? fun child => child.1 = role).map Prod.snd

def fields (tree : SyntaxTree) (role : Role) : List SyntaxTree :=
  (tree.children.filter fun child => child.1 = role).map Prod.snd

def leaf (kind : Kind) (text : String) : SyntaxTree :=
  .node kind text []

def phrase (kind : Kind) (text : String) (children : List SyntaxTree) : SyntaxTree :=
  .node kind text (children.map fun child => (.plain, child))

def mark (text : String) : SyntaxTree :=
  leaf .token text

@[simp] theorem kind_node (kind : Kind) (text : String) (children : List (Role × SyntaxTree)) :
    (node kind text children).kind = kind := rfl

@[simp] theorem text_node (kind : Kind) (text : String) (children : List (Role × SyntaxTree)) :
    (node kind text children).text = text := rfl

@[simp] theorem children_node (kind : Kind) (text : String) (children : List (Role × SyntaxTree)) :
    (node kind text children).children = children := rfl

end SyntaxTree

mutual
def SyntaxTree.size : SyntaxTree → Nat
  | .node _ _ children => forestSize children + 1
def forestSize : List (Role × SyntaxTree) → Nat
  | [] => 0
  | (_, tree) :: rest => tree.size + forestSize rest
end

theorem SyntaxTree.size_pos (tree : SyntaxTree) : 0 < tree.size := by
  cases tree
  rw [SyntaxTree.size]
  exact Nat.succ_pos _

variable {tree child : SyntaxTree}

theorem size_lt_of_child {role : Role} (member : (role, child) ∈ tree.children) :
    child.size < tree.size := by
  cases tree with
  | node kind text children =>
    rw [SyntaxTree.size]
    apply Nat.lt_succ_of_le
    simp only [SyntaxTree.children_node] at member
    induction children with
    | nil => cases member
    | cons head rest ih =>
      rw [forestSize]
      cases member with
      | head => exact Nat.le_add_right _ _
      | tail _ later => exact Nat.le_trans (ih later) (Nat.le_add_left _ _)

theorem field_is_child {role : Role} (found : tree.field? role = some child) :
    ∃ role, (role, child) ∈ tree.children := by
  obtain ⟨⟨role, same⟩, first, rfl⟩ := Option.map_eq_some_iff.mp found
  exact ⟨role, List.mem_of_find?_eq_some first⟩

theorem part_is_child (member : child ∈ tree.parts) : ∃ role, (role, child) ∈ tree.children := by
  obtain ⟨⟨role, same⟩, present, rfl⟩ := List.mem_map.mp (List.mem_filter.mp member).1
  exact ⟨role, present⟩

theorem is_part_congr {other : SyntaxTree} (kind : other.kind = tree.kind) :
    other.isPart = tree.isPart := by
  rw [SyntaxTree.isPart, SyntaxTree.isPart, kind]

theorem field_size_lt {role : Role} (found : tree.field? role = some child) :
    child.size < tree.size := by
  obtain ⟨role, member⟩ := field_is_child found
  exact size_lt_of_child member

theorem part_size_lt (member : child ∈ tree.parts) : child.size < tree.size := by
  obtain ⟨role, present⟩ := part_is_child member
  exact size_lt_of_child present

end SourceDiagram.Syntax
