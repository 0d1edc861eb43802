set_option autoImplicit false

namespace SourceDiagram.Json

-- A value of a document. A number is kept as it is written, an object in the order of its keys.
inductive Value where
  | null
  | bool (b : Bool)
  | number (literal : String)
  | string (text : String)
  | array (items : List Value)
  | object (entries : List (String × Value))
deriving Repr, Inhabited

namespace Value

def lookup? (key : String) (entries : List (String × Value)) : Option Value :=
  (entries.find? fun entry => entry.1 = key).map Prod.snd

end Value

def hexDigit (n : Nat) : Char :=
  Char.ofNat (if n < 10 then '0'.toNat + n else 'a'.toNat + (n - 10))

def escapeChar (c : Char) : List Char :=
  if c = '"' then ['\\', '"']
  else if c = '\\' then ['\\', '\\']
  else if c = '\x08' then ['\\', 'b']
  else if c = '\t' then ['\\', 't']
  else if c = '\n' then ['\\', 'n']
  else if c = '\x0c' then ['\\', 'f']
  else if c = '\r' then ['\\', 'r']
  else if c.toNat < 32 then ['\\', 'u', '0', '0', hexDigit (c.toNat / 16), hexDigit (c.toNat % 16)]
  else [c]

def quoted (text : String) : List Char :=
  '"' :: text.toList.flatMap escapeChar ++ ['"']

inductive Layout
  | compact
  | indented
deriving DecidableEq, Repr

namespace Layout

def lineBreak : Layout → Nat → List Char
  | compact, _ => []
  | indented, depth => '\n' :: List.replicate (2 * depth) ' '

def colon : Layout → List Char
  | compact => [':']
  | indented => [':', ' ']

def bracket (layout : Layout) (opening closing : Char) (depth : Nat) (items : List (List Char)) :
    List Char :=
  if items.isEmpty then [opening, closing]
  else
    opening :: [','].intercalate (items.map (layout.lineBreak (depth + 1) ++ ·)) ++
      layout.lineBreak depth ++ [closing]

end Layout

mutual
def Value.print (layout : Layout) (depth : Nat) : Value → List Char
  | .null => "null".toList
  | .bool true => "true".toList
  | .bool false => "false".toList
  | .number literal => literal.toList
  | .string text => quoted text
  | .array items => layout.bracket '[' ']' depth (printItems layout (depth + 1) items)
  | .object entries =>
    layout.bracket '\x7b' '\x7d' depth (printEntries layout (depth + 1) entries)
def printItems (layout : Layout) (depth : Nat) : List Value → List (List Char)
  | [] => []
  | item :: rest => item.print layout depth :: printItems layout depth rest
def printEntries (layout : Layout) (depth : Nat) : List (String × Value) → List (List Char)
  | [] => []
  | (key, value) :: rest =>
    (quoted key ++ layout.colon ++ value.print layout depth) :: printEntries layout depth rest
end

def Value.text (layout : Layout) (value : Value) : String :=
  String.ofList (value.print layout 0)

class Coded (α : Type) where
  encode : α → Value
  decode? : Value → Option α

export Coded (encode decode?)

instance : Coded String where
  encode := .string
  decode?
    | .string text => some text
    | _ => none

def decodeAll? {α : Type} [Coded α] : List Value → Option (List α)
  | [] => some []
  | value :: rest => do
    let first ← decode? value
    let later ← decodeAll? rest
    return first :: later

instance {α : Type} [Coded α] : Coded (List α) where
  encode items := .array (items.map encode)
  decode?
    | .array items => decodeAll? items
    | _ => none

instance {α : Type} [Coded α] : Coded (Option α) where
  encode
    | some value => encode value
    | none => .null
  decode?
    | .null => some none
    | value => (decode? value).map some

-- The values of the fields of a record. A list may lack the last `spare` fields.
def Value.fields? (keys : List String) (spare : Nat) : Value → Option (List (Option Value))
  | .object entries => some (keys.map fun key => Value.lookup? key entries)
  | .array items =>
    if items.length ≤ keys.length && keys.length ≤ items.length + spare then
      some (items.map some ++ List.replicate (keys.length - items.length) none)
    else none
  | _ => none

def required? {α : Type} [Coded α] (field : Option Value) : Option α := do
  decode? (← field)

def optional? {α : Type} [Coded α] (absent : α) (field : Option Value) : Option α :=
  match field with
  | some value => decode? value
  | none => some absent

-- A record is made from the values of its fields one after another.
def takePart {α β : Type} (take? : Option Value → Option β)
    (rest : β → List (Option Value) → Option α) : List (Option Value) → Option α
  | [] => none
  | part :: parts => (take? part).bind fun taken => rest taken parts

def partsTaken {α : Type} (made : α) : List (Option Value) → Option α
  | [] => some made
  | _ :: _ => none

def Value.choice? : Value → Option String
  | .string word => some word
  | .object [(word, .null)] => some word
  | _ => none

def choose? {α : Type} (all : List α) (word : α → String) (value : Value) : Option α := do
  let chosen ← value.choice?
  all.find? fun choice => word choice = chosen

end SourceDiagram.Json
