import SourceDiagram.Syntax.Cursor

set_option autoImplicit false

namespace SourceDiagram.Syntax

abbrev Reader (α : Type) : Type := StateT Cursor Option α

abbrev Rank := Nat

inductive Phrase
  | expression (context : Context) (rank : Rank)
  | arithmetic (context : Context) (rank : Rank)
  | primary (context : Context)
  | typeTerm (context : Context) (bounded : Bool)
  | casePattern (context : Context)
  | interpolation (kind : Kind)
  | suite
deriving DecidableEq, Repr

structure Descent where
  limit : Nat
  read : Phrase → Reader SyntaxTree

def Descent.demand (descent : Descent) (phrase : Phrase) : Reader SyntaxTree := do
  match (← get).lead .unfinished with
  | .invalid => failure
  | _ => descent.read phrase

namespace Reader

def cursor : Reader Cursor := get

def follow (context : Context) : Reader Lexeme := do
  return (← get).follow context

def lead (context : Context) : Reader Lexeme := do
  return (← get).lead context

def skip : Reader Unit := modify Cursor.advance

def require (condition : Bool) : Reader Unit :=
  if condition then pure () else failure

def accept (context : Context) (mark : Mark) : Reader Bool := do
  if (← follow context) = .mark mark then
    skip
    return true
  else return false

def expect (context : Context) (mark : Mark) : Reader Unit := do
  require (← accept context mark)

def keyword? (context : Context) : Reader (Option Keyword) := do
  return (← follow context).keyword?

def acceptWord (context : Context) (keyword : Keyword) : Reader Bool := do
  if (← keyword? context) = some keyword then
    skip
    return true
  else return false

def expectWord (context : Context) (keyword : Keyword) : Reader Unit := do
  require (← acceptWord context keyword)

def name : Reader SyntaxTree := do
  match ← follow .unfinished with
  | .word text _ =>
    skip
    return .leaf .identifier text
  | _ => failure

def textSince (before : Cursor) : Reader String := do
  return String.ofList (before.here.take ((← get).reached - before.start))

def extras : Reader (List SyntaxTree) := do
  return (← get).gap.extras

def iterate {α β : Type} (step : α → Reader (α ⊕ β)) : Nat → α → Reader β
  | 0, _ => failure
  | limit + 1, state => do
    match ← step state with
    | .inl next => iterate step limit next
    | .inr result => return result

end Reader

end SourceDiagram.Syntax
