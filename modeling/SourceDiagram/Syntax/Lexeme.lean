import SourceDiagram.Text.Characters

set_option autoImplicit false

namespace SourceDiagram.Syntax

open SourceDiagram.Text

inductive Keyword
  | and_ | as_ | assert_ | async_ | await_ | break_ | case_ | class_ | continue_ | def_ | del_
  | elif_ | else_ | except_ | exec_ | false_ | finally_ | for_ | from_ | future_ | global_ | if_
  | import_ | in_ | is_ | lambda_ | match_ | none_ | nonlocal_ | not_ | or_ | pass_ | print_
  | raise_ | return_ | true_ | try_ | type_ | while_ | with_ | yield_
deriving DecidableEq, Repr

def Keyword.spellings : List (String × Keyword) := [
  ("and", .and_), ("as", .as_), ("assert", .assert_), ("async", .async_), ("await", .await_),
  ("break", .break_), ("case", .case_), ("class", .class_), ("continue", .continue_),
  ("def", .def_), ("del", .del_), ("elif", .elif_), ("else", .else_), ("except", .except_),
  ("exec", .exec_), ("False", .false_), ("finally", .finally_), ("for", .for_), ("from", .from_),
  ("__future__", .future_), ("global", .global_), ("if", .if_), ("import", .import_), ("in", .in_),
  ("is", .is_), ("lambda", .lambda_), ("match", .match_), ("None", .none_),
  ("nonlocal", .nonlocal_), ("not", .not_), ("or", .or_), ("pass", .pass_), ("print", .print_),
  ("raise", .raise_), ("return", .return_), ("True", .true_), ("try", .try_), ("type", .type_),
  ("while", .while_), ("with", .with_), ("yield", .yield_)]

def Keyword.ofText? (word : String) : Option Keyword :=
  (spellings.find? fun entry => entry.1 == word).map Prod.snd

inductive Mark
  | leftParen | rightParen | leftBracket | rightBracket | leftBrace | rightBrace
  | comma | colon | semicolon | dot | ellipsis | at_ | arrow | walrus | assign
  | plus | minus | star | slash | percent | doubleStar | doubleSlash
  | bar | ampersand | caret | tilde | shiftLeft | shiftRight
  | less | lessEqual | equal | notEqual | greaterEqual | greater | lessGreater
  | plusAssign | minusAssign | starAssign | slashAssign | atAssign | doubleSlashAssign
  | percentAssign | doubleStarAssign | shiftRightAssign | shiftLeftAssign | ampersandAssign
  | caretAssign | barAssign
deriving DecidableEq, Repr

def Mark.spellings : List (List Char × Mark) := [
  (['*', '*', '='], .doubleStarAssign), (['/', '/', '='], .doubleSlashAssign),
  (['>', '>', '='], .shiftRightAssign), (['<', '<', '='], .shiftLeftAssign),
  (['.', '.', '.'], .ellipsis),
  (['-', '>'], .arrow), ([':', '='], .walrus), (['*', '*'], .doubleStar),
  (['/', '/'], .doubleSlash), (['<', '<'], .shiftLeft), (['>', '>'], .shiftRight),
  (['<', '='], .lessEqual), (['=', '='], .equal), (['!', '='], .notEqual),
  (['>', '='], .greaterEqual), (['<', '>'], .lessGreater), (['+', '='], .plusAssign),
  (['-', '='], .minusAssign), (['*', '='], .starAssign), (['/', '='], .slashAssign),
  (['@', '='], .atAssign), (['%', '='], .percentAssign), (['&', '='], .ampersandAssign),
  (['^', '='], .caretAssign), (['|', '='], .barAssign),
  (['('], .leftParen), ([')'], .rightParen), (['['], .leftBracket), ([']'], .rightBracket),
  (['{'], .leftBrace), (['}'], .rightBrace), ([','], .comma), ([':'], .colon), ([';'], .semicolon),
  (['.'], .dot), (['@'], .at_), (['='], .assign), (['+'], .plus), (['-'], .minus), (['*'], .star),
  (['/'], .slash), (['%'], .percent), (['|'], .bar), (['&'], .ampersand), (['^'], .caret),
  (['~'], .tilde), (['<'], .less), (['>'], .greater)]

def Mark.text (mark : Mark) : String :=
  match Mark.spellings.find? fun entry => entry.2 = mark with
  | some (spelling, _) => String.ofList spelling
  | none => ""

structure Quote where
  delimiter : Char
  triple : Bool
  formatted : Bool
  raw : Bool
  bytes : Bool
  marked : Bool
deriving DecidableEq, Repr

inductive Lexeme
  | word (text : String) (keyword : Option Keyword)
  | integer (text : String)
  | float (text : String)
  | mark (mark : Mark)
  | quote (quote : Quote)
  | lineEnd
  | ending
  | invalid
deriving DecidableEq, Repr

def Lexeme.isBareQuote : Lexeme → Bool
  | .quote opening => !opening.marked
  | _ => false

def Lexeme.keyword? : Lexeme → Option Keyword
  | .word _ keyword => keyword
  | _ => none

namespace Numeral

-- The length of a run of groups of digits, where one low line may stand after each group.
def groupsLength : List Char → Nat
  | c :: '_' :: rest =>
    if c.isDigit then
      match rest with
      | d :: _ => if d.isDigit then groupsLength rest + 2 else 2
      | [] => 2
    else 0
  | c :: rest => if c.isDigit then groupsLength rest + 1 else 0
  | [] => 0

-- The length of a run of groups of digits, where one low line may stand before each group.
def ledGroupsLength (isDigit : Char → Bool) : List Char → Nat
  | '_' :: d :: rest => if isDigit d then ledGroupsLength isDigit rest + 2 else 0
  | c :: rest => if isDigit c then ledGroupsLength isDigit rest + 1 else 0
  | [] => 0

def isBaseDigit (base : Char) (c : Char) : Bool :=
  match base with
  | 'b' => c == '0' || c == '1'
  | 'o' => '0' ≤ c && c ≤ '7'
  | _ => c.isDigit || ('a' ≤ c && c ≤ 'f') || ('A' ≤ c && c ≤ 'F')

def endingLength (letters : List Char) : List Char → Nat
  | c :: _ => if letters.contains c then 1 else 0
  | [] => 0

def exponentLength : List Char → Nat
  | 'e' :: rest => signed rest
  | 'E' :: rest => signed rest
  | _ => 0
where
  signed : List Char → Nat
    | '+' :: rest => counted 2 (groupsLength rest)
    | '-' :: rest => counted 2 (groupsLength rest)
    | rest => counted 1 (groupsLength rest)
  counted (before digits : Nat) : Nat :=
    if digits = 0 then 0 else before + digits

def basedLength? : List Char → Option Nat
  | '0' :: base :: rest =>
    if ['x', 'o', 'b'].contains base.toLower then
      let digits := ledGroupsLength (isBaseDigit base.toLower) rest
      if digits = 0 then none else some (2 + digits + endingLength ['L', 'l'] (rest.drop digits))
    else none
  | _ => none

def scan? (cs : List Char) : Option (Bool × Nat) :=
  match basedLength? cs with
  | some length => some (false, length)
  | none =>
    let whole := groupsLength cs
    let point := match cs.drop whole with
      | '.' :: rest =>
        let fraction := groupsLength rest
        if whole = 0 && fraction = 0 then 0 else fraction + 1
      | _ => 0
    if whole = 0 && point = 0 then none else
    let power := exponentLength (cs.drop (whole + point))
    if point = 0 && power = 0 then
      some (false, whole + endingLength ['L', 'l', 'j', 'J'] (cs.drop whole))
    else
      let length := whole + point + power
      some (true, length + endingLength ['j', 'J'] (cs.drop length))

end Numeral

namespace Quote

def isFlag (c : Char) : Bool :=
  ['f', 'r', 'b', 'u'].contains c.toLower

def ofDelimiter? (flags : List Char) (cs : List Char) : Option (Quote × Nat) :=
  let quote (delimiter : Char) (triple : Bool) : Quote := {
    delimiter, triple
    formatted := flags.any fun c => c.toLower == 'f'
    raw := flags.any fun c => c.toLower == 'r'
    bytes := flags.any fun c => c.toLower == 'b'
    marked := !flags.isEmpty }
  match cs with
  | '\x60' :: _ => some (quote '\x60' false, 1)
  | '\'' :: '\'' :: '\'' :: _ => some (quote '\'' true, 3)
  | '\'' :: _ => some (quote '\'' false, 1)
  | '"' :: '"' :: '"' :: _ => some (quote '"' true, 3)
  | '"' :: _ => some (quote '"' false, 1)
  | _ => none

def scan? (cs : List Char) : Option (Quote × Nat) :=
  let flags := cs.takeWhile isFlag
  (ofDelimiter? flags (cs.drop flags.length)).map fun (quote, length) =>
    (quote, flags.length + length)

end Quote

def Mark.scan? (cs : List Char) : Option (Mark × Nat) :=
  (Mark.spellings.find? fun entry => entry.1.isPrefixOf cs).map fun (spelling, mark) =>
    (mark, spelling.length)

def Lexeme.scan (cs : List Char) : Lexeme × Nat :=
  match cs with
  | [] => (.ending, 0)
  | c :: _ =>
    match Quote.scan? cs with
    | some (opening, length) => (.quote opening, length)
    | none =>
      if isIdentifierStart c then
        let letters := cs.takeWhile isIdentifierPart
        let text := String.ofList letters
        (.word text (Keyword.ofText? text), letters.length)
      else
        match Numeral.scan? cs with
        | some (fractional, length) =>
          let text := String.ofList (cs.take length)
          (if fractional then .float text else .integer text, length)
        | none =>
          match Mark.scan? cs with
          | some (sign, length) => (.mark sign, length)
          | none => (.invalid, 1)

end SourceDiagram.Syntax
