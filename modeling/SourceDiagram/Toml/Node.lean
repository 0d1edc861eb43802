set_option autoImplicit false

namespace SourceDiagram.Toml

inductive Origin
  | opened
  | implied
  | dotted
  | inline
deriving DecidableEq, Repr

-- A value of a configuration file. Only texts matter among the values that are no collection.
inductive Node where
  | text (value : String)
  | scalar
  | array (items : List Node)
  | rows (tables : List Node)
  | table (origin : Origin) (entries : List (String × Node))
deriving Repr, Inhabited

inductive Line where
  -- A key, whose last part stands apart from those before it, gets a value.
  | assign (path : List String) (key : String) (value : Node)
  | openTable (path : List String) (key : String)
  | openRow (path : List String) (key : String)
deriving Repr

def put (key : String) (value : Node) : List (String × Node) → List (String × Node)
  | [] => [(key, value)]
  | (known, old) :: rest =>
    if known = key then (key, value) :: rest else (known, old) :: put key value rest

namespace Node

def empty : Node := .table .opened []

def lookup? (key : String) (entries : List (String × Node)) : Option Node :=
  (entries.find? fun entry => entry.1 = key).map Prod.snd

def Origin.isPassable (origin : Origin) (dotted : Bool) : Bool :=
  match origin with
  | .opened => !dotted
  | .implied => true
  | .dotted => true
  | .inline => false

def changeLast (change : Node → Option Node) : List Node → Option (List Node)
  | [] => none
  | [last] => (change last).map fun changed => [changed]
  | first :: rest => (changeLast change rest).map (first :: ·)

def descend (dotted : Bool) (change : Node → Option Node) : List String → Node → Option Node
  | [], node => change node
  | key :: path, .table origin entries => do
    let child := (lookup? key entries).getD (.table (if dotted then .dotted else .implied) [])
    let changed ← match child with
      | .rows tables => (changeLast (descend dotted change path) tables).map .rows
      | .table inner _ =>
        if Origin.isPassable inner dotted then descend dotted change path child else none
      | _ => none
    return .table origin (put key changed entries)
  | _ :: _, _ => none

-- Give a key of a table its value. Dotted keys end in tables of their own, and no others do.
def insert (path : List String) (key : String) (value : Node) : Node → Option Node
  | .table origin entries =>
    if decide (origin = .dotted) == path.isEmpty then none
    else if (lookup? key entries).isSome then none
    else some (.table origin (put key value entries))
  | _ => none

def assign (path : List String) (key : String) (value : Node) : Node → Option Node :=
  descend true (insert path key value) path

def openTable (key : String) : Node → Option Node
  | .table origin entries =>
    match lookup? key entries with
    | none => some (.table origin (put key empty entries))
    | some (.table .implied inner) => some (.table origin (put key (.table .opened inner) entries))
    | some _ => none
  | _ => none

def openRow (key : String) : Node → Option Node
  | .table origin entries =>
    match lookup? key entries with
    | none => some (.table origin (put key (.rows [empty]) entries))
    | some (.rows tables) => some (.table origin (put key (.rows (tables ++ [empty])) entries))
    | some _ => none
  | _ => none

def addLines : List String → Node → List Line → Option Node
  | _, root, [] => some root
  | here, root, .assign path key value :: rest => do
    addLines here (← descend false (assign path key value) here root) rest
  | _, root, .openTable path key :: rest => do
    addLines (path ++ [key]) (← descend false (openTable key) path root) rest
  | _, root, .openRow path key :: rest => do
    addLines (path ++ [key]) (← descend false (openRow key) path root) rest

def ofLines? (lines : List Line) : Option Node :=
  addLines [] empty lines

def ofAssignments? (assignments : List (List String × String × Node)) : Option Node :=
  assignments.foldlM (fun table (path, key, value) => assign path key value table)
    (.table .inline [])

end Node

end SourceDiagram.Toml
