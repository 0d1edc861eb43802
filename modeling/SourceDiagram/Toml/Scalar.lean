set_option autoImplicit false

namespace SourceDiagram.Toml

def isDigitRun (isDigit : Char → Bool) : List Char → Bool
  | [] => false
  | [c] => isDigit c
  | c :: '_' :: rest => isDigit c && isDigitRun isDigit rest
  | c :: rest => isDigit c && isDigitRun isDigit rest

def digitValue (c : Char) : Nat :=
  if c.isDigit then c.toNat - '0'.toNat else c.toLower.toNat - 'a'.toNat + 10

def isDigitTo (base : Nat) (c : Char) : Bool :=
  c.isAlphanum && digitValue c < base

def numberOf (base : Nat) (digits : List Char) : Nat :=
  (digits.filter (· != '_')).foldl (fun n c => n * base + digitValue c) 0

def isPlain (digits : List Char) : Bool :=
  isDigitRun Char.isDigit digits && (digits.length = 1 || digits.head? != some '0')

def afterSign : List Char → Bool × List Char
  | '-' :: digits => (true, digits)
  | '+' :: digits => (false, digits)
  | digits => (false, digits)

def wordBound : Nat := 9223372036854775808

def isInteger (cs : List Char) : Bool :=
  match cs with
  | '0' :: 'x' :: digits => inBase 16 digits
  | '0' :: 'o' :: digits => inBase 8 digits
  | '0' :: 'b' :: digits => inBase 2 digits
  | _ =>
    let (negative, digits) := afterSign cs
    isPlain digits && numberOf 10 digits < (if negative then wordBound + 1 else wordBound)
where
  inBase (base : Nat) (digits : List Char) : Bool :=
    isDigitRun (isDigitTo base) digits && numberOf base digits < wordBound

def doubleBound : Nat :=
  Nat.pow 2 1024 - Nat.pow 2 970

-- Whether `digits · 10 ^ exponent / 10 ^ places` is beyond all numbers of double precision.
def isBeyondDouble (digits exponent places : Nat) : Bool :=
  let width := (Nat.toDigits 10 digits).length
  if digits = 0 then false
  else if places + 400 < exponent then true
  else if places ≤ exponent then doubleBound ≤ digits * Nat.pow 10 (exponent - places)
  else if width ≤ places - exponent then false
  else doubleBound * Nat.pow 10 (places - exponent) ≤ digits

def isExponentMark (c : Char) : Bool :=
  c == 'e' || c == 'E'

def isFraction (cs : List Char) : Bool :=
  let (negative, number) := afterSign cs
  let whole := number.takeWhile fun c => !(c == '.' || isExponentMark c)
  let tail := number.drop whole.length
  let places := match tail with
    | '.' :: rest => rest.takeWhile fun c => !isExponentMark c
    | _ => []
  let power := match tail with
    | '.' :: rest => rest.drop places.length
    | rest => rest
  let (reciprocal, exponent) := afterSign (power.drop 1)
  isPlain whole && !tail.isEmpty &&
    (tail.head? != some '.' || isDigitRun Char.isDigit places) &&
    (power.isEmpty || isDigitRun Char.isDigit exponent) &&
    (negative || reciprocal ||
      !isBeyondDouble (numberOf 10 (whole ++ places)) (numberOf 10 exponent)
        (places.filter (· != '_')).length)

def isWord (cs : List Char) : Bool :=
  ["true", "false"].contains (String.ofList cs) ||
    ["inf", "nan"].contains (String.ofList (afterSign cs).2)

def pair? (least greatest : Nat) (tens units : Char) : Option Nat :=
  let n := numberOf 10 [tens, units]
  if tens.isDigit && units.isDigit && least ≤ n && n ≤ greatest then some n else none

def daysOf (year month : Nat) : Nat :=
  if month = 2 then
    if year % 4 = 0 && (year % 100 != 0 || year % 400 = 0) then 29 else 28
  else if [4, 6, 9, 11].contains month then 30
  else 31

def afterDate? : List Char → Option (List Char)
  | a :: b :: c :: d :: '-' :: m :: n :: '-' :: x :: y :: rest =>
    match pair? 1 12 m n with
    | some month =>
      if [a, b, c, d].all Char.isDigit &&
          (pair? 1 (daysOf (numberOf 10 [a, b, c, d]) month) x y).isSome
      then some rest else none
    | none => none
  | _ => none

def afterTime? : List Char → Option (List Char)
  | a :: b :: ':' :: c :: d :: ':' :: e :: f :: rest =>
    if (pair? 0 23 a b).isSome && (pair? 0 59 c d).isSome && (pair? 0 60 e f).isSome then
      match rest with
      | '.' :: c :: rest => if c.isDigit then some (rest.dropWhile Char.isDigit) else none
      | rest => some rest
    else none
  | _ => none

def isOffset : List Char → Bool
  | ['Z'] => true
  | ['z'] => true
  | [sign, a, b, ':', c, d] =>
    (sign == '+' || sign == '-') && (pair? 0 23 a b).isSome && (pair? 0 59 c d).isSome
  | _ => false

def isPlacedTime (cs : List Char) : Bool :=
  match afterTime? cs with
  | some rest => rest.isEmpty || isOffset rest
  | none => false

def isMoment (cs : List Char) : Bool :=
  match afterDate? cs with
  | some [] => true
  | some (c :: rest) => (c == 'T' || c == 't') && isPlacedTime rest
  | none => afterTime? cs = some []

def isScalar (cs : List Char) : Bool :=
  isWord cs || isInteger cs || isFraction cs || isMoment cs

def isScalarChar (c : Char) : Bool :=
  c.isAlphanum || c == '_' || c == '+' || c == '-' || c == '.' || c == ':'

end SourceDiagram.Toml
