import SourceDiagram.Model.Formats

set_option autoImplicit false

namespace SourceDiagram.CommandLine

open SourceDiagram.Model

structure Arguments where
  file : Option String
  logLevel : Option String
  format : Option OutputFormat
  output : Option String
  config : Option String
  definitions : List String
deriving DecidableEq, Repr

inductive Setting
  | file | logLevel | format | output | config | define
deriving DecidableEq, Repr

namespace Setting

def title : Setting → String
  | file => "<FILENAME>"
  | logLevel => "--log-level <LOG_LEVEL>"
  | format => "--format <FORMAT>"
  | output => "--output <OUTPUT>"
  | config => "--config <CONFIG>"
  | define => "--define <TOKEN=VALUE>"

def purpose : Setting → String
  | file => "Path to the source code file"
  | logLevel => "Logging level (eg OFF, INFO, DEBUG, WARNING, ERROR)"
  | format => "Output format (plantuml, json)"
  | output => "Write the result to this file instead of stdout"
  | config => "Configuration file (defaults to ./umlsketch.toml when present)"
  | define => "Substitute TOKEN with VALUE in the source before parsing (repeatable)"

end Setting

inductive Notice
  | summary
  | help
  | version
deriving DecidableEq, Repr

def Notice.title : Notice → String
  | summary => "--help"
  | help => "--help"
  | version => "--version"

namespace Help

def about : String :=
  "Generate PlantUML code from a given source file"

def details : String :=
  about ++ ".\n\n" ++
    "The input kind is chosen by extension:\n" ++
    "  .sql        CREATE TABLE statements become entities\n" ++
    "  .py, .pyi   top-level classes become classes with inheritance/composition\n\n" ++
    "Example usage:\n" ++
    "  umlsketch schema.sql\n" ++
    "  umlsketch models.py --output models.puml\n" ++
    "  umlsketch schema.sql -D '$\x7bSCHEMA\x7d=public' --format json\n"

def usage : String :=
  "Usage: umlsketch [OPTIONS] <FILENAME>"

def option (short : String) (setting : Setting) : String × String :=
  (short ++ setting.title, setting.purpose)

def options (more : String) : List (String × String) :=
  [option "    " .logLevel, option "-f, " .format, option "-o, " .output, option "-c, " .config,
    option "-D, " .define, ("-h, --help", "Print help (" ++ more ++ ")"),
    ("-V, --version", "Print version")]

def inColumns (entries : List (String × String)) : String :=
  let width := (entries.map fun entry => entry.1.length).foldl max 0
  "\n".intercalate (entries.map fun entry =>
    "  " ++ entry.1 ++ String.ofList (List.replicate (width - entry.1.length) ' ') ++ "  " ++ entry.2)

def onLines (entries : List (String × String)) : String :=
  "\n\n".intercalate (entries.map fun entry => "  " ++ entry.1 ++ "\n          " ++ entry.2)

def page (heading more : String) (laidOut : List (String × String) → String) : String :=
  heading ++ "\n\n" ++ usage ++ "\n\nArguments:\n" ++ laidOut [option "" .file] ++
    "\n\nOptions:\n" ++ laidOut (options more) ++ "\n"

end Help

def Notice.text : Notice → String
  | summary => Help.page Help.about "see more with '--help'" Help.inColumns
  | help => Help.page Help.details "see a summary with '-h'" Help.onLines
  | version => "umlsketch 0.0.1\n"

inductive Meaning
  | setting (setting : Setting)
  | notice (notice : Notice)
deriving DecidableEq, Repr

def longOptions : List (String × Meaning) :=
  [("log-level", .setting .logLevel), ("format", .setting .format), ("output", .setting .output),
    ("config", .setting .config), ("define", .setting .define), ("help", .notice .help),
    ("version", .notice .version)]

def shortOptions : List (Char × Meaning) :=
  [('f', .setting .format), ('o', .setting .output), ('c', .setting .config),
    ('D', .setting .define), ('h', .notice .summary), ('V', .notice .version)]

inductive UsageFault
  | unexpectedArgument (text : String)
  | unexpectedValue (value : String) (notice : Notice)
  | missingValue (setting : Setting)
  | unknownFormat (name : String)
  | repeated (setting : Setting)
  | missingFile
deriving DecidableEq, Repr

-- The line that names the fault. The hints and the usage that are printed below it are left out.
def UsageFault.text : UsageFault → String
  | unexpectedArgument text => "error: unexpected argument '" ++ text ++ "' found"
  | unexpectedValue value notice =>
    "error: unexpected value '" ++ value ++ "' for '" ++ notice.title ++
      "' found; no more were expected"
  | missingValue setting =>
    "error: a value is required for '" ++ setting.title ++ "' but none was supplied"
  | unknownFormat name =>
    "error: invalid value '" ++ name ++ "' for '" ++ Setting.title .format ++
      "': Unknown output format: " ++ name
  | repeated setting =>
    "error: the argument '" ++ setting.title ++ "' cannot be used multiple times"
  | missingFile => "error: the following required arguments were not provided:"

inductive Halt
  | fault (cause : UsageFault)
  | notice (notice : Notice)
deriving DecidableEq, Repr

namespace Arguments

def empty : Arguments :=
  ⟨none, none, none, none, none, []⟩

def once {α : Type} (setting : Setting) (known : Option α) (value : Except UsageFault α) :
    Except UsageFault (Option α) :=
  if known.isSome then .error (.repeated setting) else value.map some

def path (setting : Setting) (value : String) : Except UsageFault String :=
  if value.isEmpty then .error (.missingValue setting) else .ok value

def formatNamed (name : String) : Except UsageFault OutputFormat :=
  match OutputFormat.ofName? name with
  | some format => .ok format
  | none => .error (.unknownFormat name)

def assign (arguments : Arguments) (value : String) : Setting → Except UsageFault Arguments
  | .file => do
    return { arguments with file := ← once .file arguments.file (path .file value) }
  | .logLevel => do
    return { arguments with logLevel := ← once .logLevel arguments.logLevel (.ok value) }
  | .format => do
    return { arguments with format := ← once .format arguments.format (formatNamed value) }
  | .output => do
    return { arguments with output := ← once .output arguments.output (path .output value) }
  | .config => do
    return { arguments with config := ← once .config arguments.config (path .config value) }
  | .define => .ok { arguments with definitions := arguments.definitions ++ [value] }

end Arguments

-- A parameter that was seen but not yet looked at, with its value once that is known.
structure Pending where
  setting : Setting
  value : Option String
deriving DecidableEq, Repr

structure Progress where
  arguments : Arguments
  pending : Option Pending
deriving DecidableEq, Repr

namespace Progress

def start : Progress :=
  ⟨.empty, none⟩

def settle (progress : Progress) : Except Halt Arguments :=
  match progress.pending with
  | none => .ok progress.arguments
  | some ⟨setting, none⟩ => .error (.fault (.missingValue setting))
  | some ⟨setting, some value⟩ => (progress.arguments.assign value setting).mapError .fault

def attach (progress : Progress) (setting : Setting) (value : String) : Except Halt Progress := do
  let arguments ← progress.settle
  let arguments ← (arguments.assign value setting).mapError .fault
  return ⟨arguments, none⟩

def await (progress : Progress) (setting : Setting) : Except Halt Progress := do
  let arguments ← progress.settle
  return ⟨arguments, some ⟨setting, none⟩⟩

def stop (progress : Progress) (notice : Notice) : Except Halt Progress := do
  let _ ← progress.settle
  throw (.notice notice)

def hasFile (progress : Progress) : Bool :=
  progress.arguments.file.isSome || (progress.pending.map Pending.setting) = some .file

def position (progress : Progress) (value : String) : Except Halt Progress :=
  if progress.hasFile then .error (.fault (.unexpectedArgument value))
  else do
    let arguments ← progress.settle
    return ⟨arguments, some ⟨.file, some value⟩⟩

def long (progress : Progress) (name : String) (value : Option String) : Except Halt Progress :=
  match (longOptions.find? fun option => option.1 = name).map Prod.snd, value with
  | none, _ => .error (.fault (.unexpectedArgument ("--" ++ name)))
  | some (.setting setting), some value => progress.attach setting value
  | some (.setting setting), none => progress.await setting
  | some (.notice notice), some value => .error (.fault (.unexpectedValue value notice))
  | some (.notice notice), none => progress.stop notice

def short (progress : Progress) (letters : List Char) : Except Halt Progress :=
  match letters with
  | [] => .ok progress
  | letter :: rest =>
    match (shortOptions.find? fun option => option.1 = letter).map Prod.snd with
    | none => .error (.fault (.unexpectedArgument (String.ofList ['-', letter])))
    | some (.notice notice) => progress.stop notice
    | some (.setting setting) =>
      match rest with
      | [] => progress.await setting
      | '=' :: value => progress.attach setting (String.ofList value)
      | value => progress.attach setting (String.ofList value)

def plain (progress : Progress) (argument : String) : Except Halt Progress :=
  match progress.pending with
  | some ⟨setting, none⟩ => .ok { progress with pending := some ⟨setting, some argument⟩ }
  | _ => progress.position argument

def take (progress : Progress) (argument : String) : Except Halt Progress :=
  match argument.toList with
  | '-' :: '-' :: rest =>
    let name := String.ofList (rest.takeWhile (· != '='))
    match rest.dropWhile (· != '=') with
    | _ :: value => progress.long name (some (String.ofList value))
    | [] => progress.long name none
  | '-' :: letter :: rest => progress.short (letter :: rest)
  | _ => progress.plain argument

def takeAll (progress : Progress) : List String → Except Halt Progress
  | [] => .ok progress
  | argument :: rest =>
    if argument = "--" then rest.foldlM position progress
    else do
      let next ← progress.take argument
      next.takeAll rest

end Progress

def readArguments (words : List String) : Except Halt Arguments := do
  let progress ← Progress.start.takeAll words
  let arguments ← progress.settle
  if arguments.file.isNone then throw (.fault .missingFile)
  return arguments

end SourceDiagram.CommandLine
