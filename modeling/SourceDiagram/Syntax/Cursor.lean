import SourceDiagram.Syntax.Lexeme
import SourceDiagram.Syntax.Tree

set_option autoImplicit false

namespace SourceDiagram.Syntax

inductive Extra
  | comment (text : String)
  | joinedLine (text : String)
deriving Repr

def Extra.tree : Extra → SyntaxTree
  | .comment text => .leaf .comment text
  | .joinedLine text => .leaf .lineContinuation text

structure Gap where
  column : Option Nat
  -- The least column at which a line of the gap or the line after it begins.
  margin : Nat
  passed : List Extra
  length : Nat
deriving Repr

namespace Gap

def extras (gap : Gap) : List SyntaxTree :=
  gap.passed.map Extra.tree

structure Scan where
  column : Option Nat
  margin : Option Nat
  hidden : Bool
  comment : Option (List Char)
  passed : List Extra
  length : Nat

def Scan.start : Scan := ⟨none, none, false, none, [], 0⟩

def Scan.withLine (scan : Scan) : Option Nat :=
  match scan.column with
  | none => scan.margin
  | some column => some (min column (scan.margin.getD column))

def Scan.pass (scan : Scan) (move : Option Nat → Option Nat) : Scan :=
  { scan with
    column := if scan.hidden then scan.column else move scan.column
    length := scan.length + 1 }

def Scan.endComment (scan : Scan) (comment : List Char) : Scan :=
  { scan with
    comment := none
    hidden := false
    passed := .comment (String.ofList comment.reverse) :: scan.passed }

def Scan.join (scan : Scan) (length : Nat) (text : String) : Scan :=
  { scan with
    hidden := false
    passed := .joinedLine text :: scan.passed
    length := scan.length + length }

def Scan.finish (scan : Scan) : Gap where
  column := scan.column
  margin := scan.withLine.getD 0
  passed := scan.passed.reverse
  length := scan.length

def Scan.atEnd (scan : Scan) : Scan :=
  { scan with column := if scan.hidden then scan.column else some 0 }

def scan (state : Scan) : List Char → Gap × List Char
  | [] =>
    match state.comment with
    | some comment => ((state.endComment comment).atEnd.finish, [])
    | none => (state.atEnd.finish, [])
  | '\\' :: '\n' :: rest =>
    match state.comment with
    | some comment =>
      scan ({ state.endComment ('\\' :: comment) with length := state.length + 1 }.pass
        fun _ => some 0) rest
    | none => scan (state.join 2 "\\\n") rest
  | '\\' :: '\r' :: '\n' :: rest =>
    match state.comment with
    | some comment =>
      scan ({ state.endComment ('\r' :: '\\' :: comment) with length := state.length + 2 }.pass
        fun _ => some 0) rest
    | none => scan (state.join 3 "\\\r\n") rest
  | ['\\'] =>
    match state.comment with
    | some comment =>
      ({ state.endComment ('\\' :: comment) with length := state.length + 1 }.atEnd.finish, [])
    | none => ((state.join 1 "\\").atEnd.finish, [])
  | c :: rest =>
    match state.comment with
    | some comment =>
      if c = '\n' then scan ((state.endComment comment).pass fun _ => some 0) rest
      else scan { state with comment := some (c :: comment), length := state.length + 1 } rest
    | none =>
      if c = '\n' then scan (state.pass fun _ => some 0) rest
      else if c = ' ' then scan (state.pass (Option.map (· + 1))) rest
      else if c = '\t' then scan (state.pass (Option.map (· + 8))) rest
      else if c = '\r' || c = '\x0c' then scan (state.pass (Option.map fun _ => 0)) rest
      else if c = '\x0b' || c = '\ufeff' || c = '\u200b' || c = '\u2060' then
        scan { state.pass id with hidden := true } rest
      else if c = '#' then
        scan { state with
          comment := some ['#'], margin := state.withLine, length := state.length + 1 } rest
      else (state.finish, c :: rest)

def ofText (cs : List Char) : Gap × List Char :=
  scan .start cs

def isBroken (gap : Gap) : Bool :=
  gap.column.isSome

end Gap

structure Cursor where
  gap : Gap
  lexeme : Lexeme
  here : List Char
  rest : List Char
  start : Nat
  stop : Nat
  -- How many characters come before the end of the last lexeme passed.
  reached : Nat
  indents : List Nat
  -- Whether the last string that was opened holds expressions and is not closed.
  formatted : Bool

namespace Cursor

def enter (cs : List Char) (offset : Nat) (indents : List Nat) (formatted : Bool) : Cursor :=
  let (gap, here) := Gap.ofText cs
  let (lexeme, length) := Lexeme.scan here
  let start := offset + gap.length
  { gap, lexeme, here, rest := here.drop length, start, stop := start + length
    reached := offset, indents, formatted }

def ofText (cs : List Char) : Cursor :=
  enter cs 0 [] false

def advance (cursor : Cursor) : Cursor :=
  enter cursor.rest cursor.stop cursor.indents cursor.formatted

-- The cursor at a mark of two or more characters, seen as its first character only.
def narrow (cursor : Cursor) : Cursor :=
  let (lexeme, length) := Lexeme.scan (cursor.here.take 1)
  { cursor with lexeme, rest := cursor.here.drop length, stop := cursor.start + length }

def indent (cursor : Cursor) : Nat :=
  cursor.indents.headD 0

def isDedented (cursor : Cursor) : Bool :=
  match cursor.gap.column with
  | some column => column < cursor.indent
  | none => false

def isIndented (cursor : Cursor) : Bool :=
  match cursor.gap.column with
  | some column => cursor.indent < column
  | none => false

def breaksOut (cursor : Cursor) : Bool :=
  cursor.gap.isBroken && cursor.gap.margin < cursor.indent && !cursor.formatted

end Cursor

structure Context where
  lineEnds : Bool
  enclosed : Bool
  filtered : Bool
  -- Where the element of a display or a call begins that the phrase is the first part of.
  element : Option Nat
deriving DecidableEq, Repr

namespace Context

def line : Context := ⟨true, false, false, none⟩

def unfinished : Context := ⟨false, false, false, none⟩

def bracketed : Context := ⟨false, true, false, none⟩

def elementAt (start : Nat) : Context := { bracketed with element := some start }

def clause : Context := ⟨false, true, true, none⟩

end Context

def Cursor.follow (cursor : Cursor) (context : Context) : Lexeme :=
  if context.lineEnds then
    if cursor.gap.isBroken then .lineEnd else cursor.lexeme
  else if context.enclosed || !cursor.breaksOut then cursor.lexeme
  else .invalid

-- The lexeme that begins a phrase. A quote without letters may stand left of the block.
def Cursor.lead (cursor : Cursor) (context : Context) : Lexeme :=
  match cursor.follow context with
  | .invalid => if cursor.lexeme.isBareQuote then cursor.lexeme else .invalid
  | lexeme => lexeme

end SourceDiagram.Syntax
