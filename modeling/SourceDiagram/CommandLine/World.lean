import SourceDiagram.CommandLine.Run
import SourceDiagram.Files

set_option autoImplicit false

namespace SourceDiagram.CommandLine

structure World where
  files : Files
  directory : List String
  environment : List (String × String)
  output : String
  errors : List String

namespace World

def start (files : Files) (environment : List (String × String))
    (directory : List String := []) : World :=
  ⟨files, directory, environment, "", []⟩

def linesOf (text : String) : List String :=
  match (text.toList.splitOn '\n').map String.ofList with
  | [] => []
  | lines => if lines.getLast? = some "" && lines.length ≠ 1 then lines.dropLast else lines

def host : Host (StateM World) where
  isPresent path := do
    let world ← get
    return world.files.isPresent path world.directory
  read path := do
    let world ← get
    return world.files.read path world.directory
  write path content := do
    let world ← get
    match world.files.write path content world.directory with
    | .error fault => return .error fault
    | .ok files =>
      modify fun world => { world with files }
      return .ok ()
  environment? name := do
    return ((← get).environment.find? fun entry => entry.1 = name).map Prod.snd
  out text := modify fun world => { world with output := world.output ++ text }
  err text := modify fun world => { world with errors := world.errors ++ linesOf text }
  theme := .plain

def run (world : World) (words : List String) : Nat × World :=
  (CommandLine.run host words).run world

end World

end SourceDiagram.CommandLine
