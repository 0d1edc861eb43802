import SourceDiagram.Report

set_option autoImplicit false

namespace SourceDiagram

-- What the program may do with an entry. What stands in a directory is found if it may be searched.
structure Access where
  reads : Bool
  writes : Bool
  searches : Bool
deriving DecidableEq, Repr

def Access.full : Access := ⟨true, true, true⟩

inductive Entry
  | file (content : ByteArray) (access : Access := .full)
  | directory (access : Access := .full)

-- Entries by the names that lead to them from the root.
structure Files where
  entries : List (List String × Entry)

namespace Files

def leadsOn (files : Files) (place : List String) : Bool :=
  place.isEmpty || files.entries.any fun known => place.isPrefixOf known.1 && known.1 != place

def entry? (files : Files) (place : List String) : Option Entry :=
  match (files.entries.find? fun known => known.1 = place).map Prod.snd with
  | some entry => some entry
  | none => if files.leadsOn place then some (.directory .full) else none

def put (files : Files) (place : List String) (entry : Entry) : Files :=
  ⟨(files.entries.filter fun known => known.1 != place) ++ [(place, entry)]⟩

def nameLimit : Nat := 255

def pathLimit : Nat := 4095

def directoryAt (files : Files) (place : List String) : Except FileFault Access :=
  match files.entry? place with
  | some (.directory access) => .ok access
  | some (.file _ _) => .error .notDirectory
  | none => .error .missing

def enter (files : Files) (place : List String) : Except FileFault Unit := do
  let access ← files.directoryAt place
  if access.searches then return () else throw .denied

def child (place : List String) (name : String) : Except FileFault (List String) :=
  if name = "." then .ok place
  else if name = ".." then .ok place.dropLast
  else if nameLimit < name.utf8ByteSize then .error .nameTooLong
  else .ok (place ++ [name])

def walk (files : Files) (place : List String) : List String → Except FileFault (List String)
  | [] => .ok place
  | name :: rest => do
    files.enter place
    files.walk (← child place name) rest

def namesOf (path : String) : List String :=
  (path.toList.splitOn '/').map String.ofList

def steps (path : String) : List String :=
  (namesOf path).filter (· ≠ "")

def start (path : String) (directory : List String) : List String :=
  if path.toList.head? = some '/' then [] else directory

def isClosed (path : String) : Bool :=
  path.toList.getLast? = some '/'

def check (path : String) : Except FileFault Unit :=
  if path.isEmpty then .error .missing
  else if path.toList.contains '\x00' then .error .nulInName
  else if pathLimit < path.utf8ByteSize then .error .nameTooLong
  else .ok ()

def locate (files : Files) (path : String) (directory : List String) :
    Except FileFault (List String) := do
  check path
  let place ← files.walk (start path directory) (steps path)
  if isClosed path then
    let _ ← files.directoryAt place
  return place

def isPresent (files : Files) (path : String) (directory : List String) : Bool :=
  match files.locate path directory with
  | .ok place => (files.entry? place).isSome
  | .error _ => false

-- A directory is opened before it turns out to have no content.
def read (files : Files) (path : String) (directory : List String := []) :
    Except FileFault ByteArray := do
  match files.entry? (← files.locate path directory) with
  | some (.file content access) => if access.reads then return content else throw .denied
  | some (.directory access) => if access.reads then throw .isDirectory else throw .denied
  | none => throw .missing

-- No file comes to be where a directory is asked for, whatever stands there.
def closedFault (files : Files) (path : String) (directory : List String) : FileFault :=
  let opened := do
    let parent ← files.walk (start path directory) (steps path).dropLast
    if steps path ≠ [] then files.enter parent
  match opened with
  | .ok () => .isDirectory
  | .error fault => fault

def putFile (files : Files) (place : List String) (content : ByteArray) : Except FileFault Files :=
  match files.entry? place with
  | some (.directory _) => .error .isDirectory
  | some (.file _ access) =>
    if access.writes then .ok (files.put place (.file content access)) else .error .denied
  | none => do
    let parent ← files.directoryAt place.dropLast
    if parent.writes then return files.put place (.file content .full) else throw .denied

def write (files : Files) (path : String) (content : ByteArray) (directory : List String) :
    Except FileFault Files := do
  check path
  if isClosed path then throw (files.closedFault path directory)
  else files.putFile (← files.walk (start path directory) (steps path)) content

end Files

end SourceDiagram
