import SourceDiagram.Syntax.Lexeme

set_option autoImplicit false

namespace SourceDiagram.Syntax.Quoted

inductive Stop
  | close
  | hole
deriving DecidableEq, Repr

def isHexDigit (c : Char) : Bool :=
  c.isDigit || ('a' ≤ c && c ≤ 'f') || ('A' ≤ c && c ≤ 'F')

def escapeLength (cs : List Char) : Nat :=
  match cs with
  | 'u' :: rest => if hexes 4 rest then 5 else 0
  | 'U' :: rest => if hexes 8 rest then 9 else 0
  | 'x' :: rest => if hexes 2 rest then 3 else 0
  | '\r' :: '\n' :: _ => 2
  | 'N' :: '{' :: rest =>
    let name := rest.takeWhile (· ≠ '}')
    if name.isEmpty || (rest.drop name.length).isEmpty then 0 else name.length + 3
  | c :: _ =>
    if ['\n', '\'', '"', 'a', 'b', 'f', 'r', 'n', 't', 'v', '\\'].contains c then 1
    else ((cs.take 3).takeWhile Char.isDigit).length
  | [] => 0
where
  hexes (count : Nat) (rest : List Char) : Bool :=
    (rest.take count).length = count && (rest.take count).all isHexDigit

def keptLength (delimiter : Char) (cs : List Char) : Nat :=
  let hidden := match cs with
    | c :: _ => if c = delimiter || c = '\\' then 1 else 0
    | [] => 0
  match cs.drop hidden with
  | '\r' :: '\n' :: _ => hidden + 2
  | '\r' :: _ => hidden + 1
  | '\n' :: _ => hidden + 1
  | _ => hidden

-- Read literal text up to the closing quote or an expression. `fed` tells whether plain text was
-- passed since the last quote, escape or expression, after which a line break needs three quotes;
-- `skip` counts characters that are passed without a look. The result has the number of characters
-- passed and the text after them.
def scan (quote : Quote) (fed : Bool) (skip length : Nat) :
    List Char → Option (Stop × Nat × List Char)
  | [] => none
  | c :: rest =>
    if 0 < skip then scan quote fed (skip - 1) (length + 1) rest
    else if c = '\x00' then none
    else if quote.formatted && c = '{' then
      if rest.head? = some '{' then scan quote false 1 (length + 1) rest
      else some (.hole, length + 1, rest)
    else if quote.formatted && c = '}' then
      if rest.head? = some '}' then scan quote false 1 (length + 1) rest else none
    else if c = '\\' then
      if quote.raw then scan quote fed (keptLength quote.delimiter rest) (length + 1) rest
      else if quote.bytes && [some 'N', some 'u', some 'U'].contains rest.head? then
        scan quote true 2 (length + 1) rest
      else scan quote false (escapeLength rest) (length + 1) rest
    else if c = quote.delimiter then
      if quote.triple then
        match rest with
        | d :: e :: after =>
          if d = quote.delimiter && e = quote.delimiter then some (.close, length + 3, after)
          else scan quote false 0 (length + 1) rest
        | _ => none
      else some (.close, length + 1, rest)
    else if c = '\n' && fed && !quote.triple then none
    else scan quote true 0 (length + 1) rest

def formatText (length : Nat) : List Char → Nat × List Char
  | [] => (length, [])
  | c :: rest => if c = '{' || c = '}' then (length, c :: rest) else formatText (length + 1) rest

end SourceDiagram.Syntax.Quoted
