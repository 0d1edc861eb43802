import SourceDiagram.Json.Document

set_option autoImplicit false

namespace SourceDiagram.Json

def isSpace (c : Char) : Bool :=
  c == ' ' || c == '\t' || c == '\n' || c == '\r'

def afterSpace (cs : List Char) : List Char :=
  cs.dropWhile isSpace

def afterMark? (mark : Char) : List Char → Option (List Char)
  | c :: cs => if c = mark then some cs else none
  | [] => none

def hexValue? (c : Char) : Option Nat :=
  if c.isDigit then some (c.toNat - '0'.toNat)
  else if 'a' ≤ c ∧ c ≤ 'f' then some (c.toNat - 'a'.toNat + 10)
  else if 'A' ≤ c ∧ c ≤ 'F' then some (c.toNat - 'A'.toNat + 10)
  else none

def hexNumber? (a b c d : Char) : Option Nat := do
  let thousands ← hexValue? a
  let hundreds ← hexValue? b
  let tens ← hexValue? c
  let units ← hexValue? d
  return ((thousands * 16 + hundreds) * 16 + tens) * 16 + units

def isUpperHalf (n : Nat) : Bool :=
  0xd800 ≤ n && n < 0xdc00

def isLowerHalf (n : Nat) : Bool :=
  0xdc00 ≤ n && n < 0xe000

def joinHalves (upper lower : Nat) : Char :=
  Char.ofNat (0x10000 + (upper - 0xd800) * 0x400 + (lower - 0xdc00))

def unescaped? : Char → Option Char
  | '"' => some '"'
  | '\\' => some '\\'
  | '/' => some '/'
  | 'b' => some '\x08'
  | 'f' => some '\x0c'
  | 'n' => some '\n'
  | 'r' => some '\r'
  | 't' => some '\t'
  | _ => none

def readCode? : List Char → Option (Char × List Char)
  | a :: b :: c :: d :: rest => do
    let n ← hexNumber? a b c d
    if isUpperHalf n then
      match rest with
      | '\\' :: 'u' :: a :: b :: c :: d :: rest =>
        let lower ← hexNumber? a b c d
        if isLowerHalf lower then some (joinHalves n lower, rest) else none
      | _ => none
    else if isLowerHalf n then none
    else some (Char.ofNat n, rest)
  | _ => none

def readCharacter? : List Char → Option (Char × List Char)
  | '\\' :: 'u' :: rest => readCode? rest
  | '\\' :: letter :: rest => (unescaped? letter).map fun c => (c, rest)
  | c :: rest => if c = '"' ∨ c = '\\' ∨ c.toNat < 32 then none else some (c, rest)
  | [] => none

def readText? : Nat → List Char → Option (List Char × List Char)
  | 0, _ => none
  | limit + 1, cs =>
    match afterMark? '"' cs with
    | some rest => some ([], rest)
    | none => do
      let (c, rest) ← readCharacter? cs
      let (text, rest) ← readText? limit rest
      return (c :: text, rest)

def isExponentMark (c : Char) : Bool :=
  c == 'e' || c == 'E'

def isDigits (cs : List Char) : Bool :=
  !cs.isEmpty && cs.all Char.isDigit

def isPlainChar (c : Char) : Bool :=
  c.isAlphanum || c == '-' || c == '+' || c == '.'

def isDecimal (cs : List Char) : Bool :=
  let whole := cs.takeWhile (· != '.')
  let fraction := cs.dropWhile (· != '.')
  isDigits whole && (whole.length = 1 || whole.head? != some '0') &&
    (fraction.isEmpty || isDigits (fraction.drop 1))

def isExponent : List Char → Bool
  | [] => true
  | _ :: '+' :: digits => isDigits digits
  | _ :: '-' :: digits => isDigits digits
  | _ :: digits => isDigits digits

def isNumeral (cs : List Char) : Bool :=
  let unsigned := if cs.head? = some '-' then cs.drop 1 else cs
  isDecimal (unsigned.takeWhile fun c => !isExponentMark c) &&
    isExponent (unsigned.dropWhile fun c => !isExponentMark c)

def plainValue? (word : List Char) : Option Value :=
  if word = "null".toList then some .null
  else if word = "true".toList then some (.bool true)
  else if word = "false".toList then some (.bool false)
  else if isNumeral word then some (.number (String.ofList word))
  else none

def readListed? {α : Type} (one : List Char → Option (α × List Char)) (closing : Char) :
    Nat → List Char → Option (List α × List Char)
  | 0, _ => none
  | limit + 1, cs => do
    let (item, rest) ← one (afterSpace cs)
    match afterMark? closing (afterSpace rest) with
    | some rest => return ([item], rest)
    | none =>
      let rest ← afterMark? ',' (afterSpace rest)
      let (later, rest) ← readListed? one closing limit rest
      return (item :: later, rest)

def readList? {α : Type} (one : List Char → Option (α × List Char)) (closing : Char) (limit : Nat)
    (cs : List Char) : Option (List α × List Char) :=
  match afterMark? closing (afterSpace cs) with
  | some rest => some ([], rest)
  | none => readListed? one closing limit cs

def readMember? (value : List Char → Option (Value × List Char)) (limit : Nat) (cs : List Char) :
    Option ((String × Value) × List Char) := do
  let rest ← afterMark? '"' cs
  let (key, rest) ← readText? limit rest
  let rest ← afterMark? ':' (afterSpace rest)
  let (item, rest) ← value (afterSpace rest)
  return ((String.ofList key, item), rest)

def readValue? (limit : Nat) : Nat → List Char → Option (Value × List Char)
  | 0, _ => none
  | depth + 1, cs =>
    match cs with
    | '"' :: rest => do
      let (text, rest) ← readText? limit rest
      return (.string (String.ofList text), rest)
    | '[' :: rest => do
      let (items, rest) ← readList? (readValue? limit depth) ']' limit rest
      return (.array items, rest)
    | '\x7b' :: rest => do
      let (entries, rest) ← readList? (readMember? (readValue? limit depth) limit) '\x7d' limit rest
      return (.object entries, rest)
    | cs => do
      let value ← plainValue? (cs.takeWhile isPlainChar)
      return (value, cs.dropWhile isPlainChar)

def parse? (text : String) : Option Value := do
  let cs := text.toList
  let (value, rest) ← readValue? cs.length cs.length (afterSpace cs)
  if rest.all isSpace then some value else none

def Space (gap : List Char) : Prop :=
  ∀ c ∈ gap, isSpace c = true

inductive CharacterText : Char → List Char → Prop where
  | plain {c : Char} : c ≠ '"' → c ≠ '\\' → 32 ≤ c.toNat → CharacterText c [c]
  | escaped {letter c : Char} : unescaped? letter = some c → CharacterText c ['\\', letter]
  | coded {a b c d : Char} {n : Nat} : hexNumber? a b c d = some n →
      isUpperHalf n = false → isLowerHalf n = false →
      CharacterText (Char.ofNat n) ['\\', 'u', a, b, c, d]
  | halves {a b c d e f g h : Char} {upper lower : Nat} :
      hexNumber? a b c d = some upper → isUpperHalf upper = true →
      hexNumber? e f g h = some lower → isLowerHalf lower = true →
      CharacterText (joinHalves upper lower) ['\\', 'u', a, b, c, d, '\\', 'u', e, f, g, h]

inductive StringText : List Char → List Char → Prop where
  | nil : StringText [] []
  | cons {c : Char} {cs first later : List Char} : CharacterText c first → StringText cs later →
      StringText (c :: cs) (first ++ later)

def Digits (cs : List Char) : Prop :=
  cs ≠ [] ∧ ∀ c ∈ cs, c.isDigit = true

def Whole (cs : List Char) : Prop :=
  Digits cs ∧ (cs.head? = some '0' → cs = ['0'])

inductive Fraction : List Char → Prop where
  | absent : Fraction []
  | present {digits : List Char} : Digits digits → Fraction ('.' :: digits)

inductive Exponent : List Char → Prop where
  | absent : Exponent []
  | present {mark : Char} {sign digits : List Char} : mark = 'e' ∨ mark = 'E' →
      sign = [] ∨ sign = ['+'] ∨ sign = ['-'] → Digits digits →
      Exponent (mark :: (sign ++ digits))

inductive Numeral : List Char → Prop where
  | intro {sign whole fraction exponent : List Char} : sign = [] ∨ sign = ['-'] → Whole whole →
      Fraction fraction → Exponent exponent → Numeral (sign ++ (whole ++ (fraction ++ exponent)))

inductive Listed {α : Type} (one : α → List Char → Prop) : List α → List Char → Prop where
  | last {item : α} {before written after : List Char} : Space before → one item written →
      Space after → Listed one [item] (before ++ (written ++ after))
  | more {item : α} {items : List α} {before written after rest : List Char} : Space before →
      one item written → Space after → Listed one items rest →
      Listed one (item :: items) (before ++ (written ++ (after ++ ',' :: rest)))

mutual
inductive Spells : Value → List Char → Prop where
  | null : Spells .null "null".toList
  | yes : Spells (.bool true) "true".toList
  | no : Spells (.bool false) "false".toList
  | number {literal : String} : Numeral literal.toList → Spells (.number literal) literal.toList
  | string {text : String} {written : List Char} : StringText text.toList written →
      Spells (.string text) ('"' :: (written ++ ['"']))
  | emptyArray {gap : List Char} : Space gap → Spells (.array []) ('[' :: (gap ++ [']']))
  | array {items : List Value} {written : List Char} : Listed Spells items written →
      Spells (.array items) ('[' :: (written ++ [']']))
  | emptyObject {gap : List Char} : Space gap →
      Spells (.object []) ('\x7b' :: (gap ++ ['\x7d']))
  | object {entries : List (String × Value)} {written : List Char} :
      Listed SpellsEntry entries written →
      Spells (.object entries) ('\x7b' :: (written ++ ['\x7d']))
inductive SpellsEntry : String × Value → List Char → Prop where
  | intro {key : String} {value : Value} {quoted before after written : List Char} :
      StringText key.toList quoted → Space before → Space after → Spells value written →
      SpellsEntry (key, value) ('"' :: (quoted ++ '"' :: (before ++ ':' :: (after ++ written))))
end

inductive TextOf : Value → List Char → Prop where
  | intro {value : Value} {before written after : List Char} : Space before →
      Spells value written → Space after → TextOf value (before ++ (written ++ after))

end SourceDiagram.Json
