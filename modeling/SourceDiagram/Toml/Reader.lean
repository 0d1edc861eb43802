import SourceDiagram.Toml.Node
import SourceDiagram.Toml.Scalar

set_option autoImplicit false

namespace SourceDiagram.Toml

abbrev Scan (α : Type) : Type := StateT (List Char) Option α

namespace Scan

def ahead : Scan (List Char) := get

def require (condition : Bool) : Scan Unit :=
  if condition then pure () else failure

def accept (expected : String) : Scan Bool := do
  let cs ← ahead
  if expected.toList.isPrefixOf cs then
    set (cs.drop expected.toList.length)
    return true
  else return false

def expect (expected : String) : Scan Unit := do
  require (← accept expected)

def span (p : Char → Bool) : Scan (List Char) := do
  let cs ← ahead
  set (cs.dropWhile p)
  return cs.takeWhile p

def iterate {α β : Type} (step : α → Scan (α ⊕ β)) : Nat → α → Scan β
  | 0, _ => failure
  | limit + 1, state => do
    match ← step state with
    | .inl next => iterate step limit next
    | .inr result => return result

def isSpace (c : Char) : Bool :=
  c == ' ' || c == '\t'

def isPrintable (c : Char) : Bool :=
  c == '\t' || (32 ≤ c.toNat && c.toNat != 127)

def spaces : Scan Unit := do
  let _ ← span isSpace

def lineBreak : Scan Bool := do
  if ← accept "\n" then return true else accept "\r\n"

def comment : Scan Bool := do
  if ← accept "#" then
    let _ ← span isPrintable
    return true
  else return false

def lineEnd : Scan Unit := do
  spaces
  let _ ← comment
  unless ← lineBreak do require (← ahead).isEmpty

def gap (limit : Nat) : Scan Unit :=
  iterate (fun (_ : Unit) => do
    spaces
    if ← comment then
      require (← lineBreak)
      return .inl ()
    else if ← lineBreak then return .inl ()
    else return .inr ()) limit ()

def character (n : Nat) : Scan Char :=
  if n.isValidChar then pure (Char.ofNat n) else failure

def coded (count : Nat) : Scan Char := do
  let cs ← ahead
  let digits := cs.take count
  require (digits.length = count && digits.all (isDigitTo 16))
  set (cs.drop count)
  character (numberOf 16 digits)

def escaped : Scan Char := do
  match ← ahead with
  | c :: rest =>
    set rest
    match c with
    | 'b' => return '\x08'
    | 't' => return '\t'
    | 'n' => return '\n'
    | 'f' => return '\x0c'
    | 'r' => return '\r'
    | '"' => return '"'
    | '\\' => return '\\'
    | 'u' => coded 4
    | 'U' => coded 8
    | _ => failure
  | [] => failure

def basicString (limit : Nat) : Scan String :=
  iterate (fun (found : List Char) => do
    let plain ← span fun c => isPrintable c && c != '"' && c != '\\'
    let found := found ++ plain
    if ← accept "\"" then return .inr (String.ofList found)
    else
      expect "\\"
      let c ← escaped
      return .inl (found ++ [c])) limit []

def literalString : Scan String := do
  let found ← span fun c => isPrintable c && c != '\''
  expect "'"
  return String.ofList found

-- Read the quotes ahead of a string of many lines: fewer than three belong to it, three close it,
-- and up to two before those belong to it. The result tells whether the string is closed.
def quotes (quote : Char) : Scan (Nat × Bool) := do
  let run ← span (· == quote)
  if run.length < 3 then return (run.length, false)
  else
    require (run.length ≤ 5)
    return (run.length - 3, true)

def lineJoin : Scan Bool := do
  match ← ahead with
  | '\\' :: rest =>
    let afterSpace := rest.dropWhile isSpace
    if ['\n'].isPrefixOf afterSpace || ['\r', '\n'].isPrefixOf afterSpace then
      set afterSpace
      return true
    else return false
  | _ => return false

def blankLines (limit : Nat) : Scan Unit :=
  iterate (fun (_ : Unit) => do
    spaces
    if ← lineBreak then return .inl () else return .inr ()) limit ()

def longString (limit : Nat) (quote : Char) (escapes : Bool) : Scan String := do
  let _ ← lineBreak
  iterate (fun (found : List Char) => do
    let plain ← span fun c => isPrintable c && c != quote && !(escapes && c == '\\')
    let (count, closed) ← quotes quote
    let found := found ++ plain ++ List.replicate count quote
    if closed then return .inr (String.ofList found)
    else if 0 < count then return .inl found
    else if ← lineBreak then return .inl (found ++ ['\n'])
    else if ← lineJoin then
      blankLines limit
      return .inl found
    else
      expect "\\"
      let c ← escaped
      return .inl (found ++ [c])) limit []

def string (limit : Nat) : Scan String := do
  if ← accept "\"\"\"" then longString limit '"' true
  else if ← accept "'''" then longString limit '\'' false
  else if ← accept "\"" then basicString limit
  else
    expect "'"
    literalString

def depthLimit : Nat := 80

def keyPart (limit : Nat) : Scan String := do
  if ← accept "\"" then basicString limit
  else if ← accept "'" then literalString
  else
    let word ← span fun c => c.isAlphanum || c == '_' || c == '-'
    require (!word.isEmpty)
    return String.ofList word

def key (limit : Nat) : Scan (List String × String) := do
  let path ← iterate (fun (found : List String) => do
    spaces
    let part ← keyPart limit
    spaces
    let found := found ++ [part]
    if ← accept "." then return .inl found else return .inr found) limit []
  require (path.length < depthLimit)
  match path.getLast? with
  | some last => return (path.dropLast, last)
  | none => failure

def scalar : Scan Node := do
  let word ← span isScalarChar
  require (isScalar word)
  match afterDate? word, ← ahead with
  | some [], ' ' :: rest =>
    let time := rest.takeWhile isScalarChar
    if time.isEmpty then return .scalar
    else
      require (isPlacedTime time)
      set (rest.dropWhile isScalarChar)
      return .scalar
  | _, _ => return .scalar

def items (limit : Nat) (value : Scan Node) : Scan (List Node) :=
  iterate (fun (found : List Node) => do
    gap limit
    if ← accept "]" then return .inr found
    else
      let item ← value
      let found := found ++ [item]
      gap limit
      if ← accept "," then return .inl found
      else
        expect "]"
        return .inr found) limit []

def assignments (limit : Nat) (value : Scan Node) :
    Scan (List (List String × String × Node)) := do
  spaces
  if ← accept "\x7d" then return []
  else
    iterate (fun (found : List (List String × String × Node)) => do
      let (path, last) ← key limit
      expect "="
      spaces
      let item ← value
      spaces
      let found := found ++ [(path, last, item)]
      if ← accept "," then return .inl found
      else
        expect "\x7d"
        return .inr found) limit []

def value (limit : Nat) : Nat → Scan Node
  | 0 => failure
  | depth + 1 => do
    match ← ahead with
    | '"' :: _ => return .text (← string limit)
    | '\'' :: _ => return .text (← string limit)
    | '[' :: rest =>
      set rest
      require (0 < depth)
      return .array (← items limit (value limit depth))
    | '\x7b' :: rest =>
      set rest
      require (0 < depth)
      match Node.ofAssignments? (← assignments limit (value limit depth)) with
      | some table => return table
      | none => failure
    | _ => scalar

def assignment (limit : Nat) : Scan Line := do
  let (path, last) ← key limit
  expect "="
  spaces
  let item ← value limit depthLimit
  lineEnd
  return .assign path last item

def header (limit : Nat) : Scan Line := do
  if ← accept "[[" then
    let (path, last) ← key limit
    expect "]]"
    lineEnd
    return .openRow path last
  else
    expect "["
    let (path, last) ← key limit
    expect "]"
    lineEnd
    return .openTable path last

def lines (limit : Nat) : Scan (List Line) :=
  iterate (fun (found : List Line) => do
    spaces
    match ← ahead with
    | [] => return .inr found
    | '#' :: _ =>
      lineEnd
      return .inl found
    | '[' :: _ =>
      let line ← header limit
      return .inl (found ++ [line])
    | c :: _ =>
      if c == '\n' || c == '\r' then
        require (← lineBreak)
        return .inl found
      else
        let line ← assignment limit
        return .inl (found ++ [line])) limit []

end Scan

def read? (text : String) : Option Node := do
  let cs := match text.toList with
    | '\ufeff' :: rest => rest
    | cs => cs
  let limit := cs.length + 2
  let (lines, _) ← (Scan.lines limit).run cs
  Node.ofLines? lines

end SourceDiagram.Toml
