import SourceDiagram.Build
import SourceDiagram.CommandLine.Arguments
import SourceDiagram.CommandLine.Logging
import SourceDiagram.Configuration

set_option autoImplicit false

namespace SourceDiagram

inductive Tone
  | success | error | warn | dim
deriving DecidableEq, Repr

def Tone.code : Tone → String
  | .success => "32;1"
  | .error => "31;1"
  | .warn => "33;1"
  | .dim => "37;2"

inductive Theme
  | colored
  | plain
deriving DecidableEq, Repr

def Theme.apply (theme : Theme) (tone : Tone) (text : String) : String :=
  match theme with
  | .colored => "\x1b[" ++ tone.code ++ "m" ++ text ++ "\x1b[0m"
  | .plain => text

end SourceDiagram

namespace SourceDiagram.CommandLine

open SourceDiagram.Model

structure Host (m : Type → Type) where
  isPresent : String → m Bool
  read : String → m (Except FileFault ByteArray)
  write : String → ByteArray → m (Except FileFault Unit)
  environment? : String → m (Option String)
  out : String → m Unit
  err : String → m Unit
  theme : Theme

inductive RunFault
  | configuration (fault : Configuration.Fault)
  | definition (text : String)
  | build (fault : Fault)
  | output (fault : FileFault)
deriving DecidableEq, Repr

namespace RunFault

def text : RunFault → String
  | configuration fault => fault.text
  | definition text => "invalid macro definition '" ++ text ++ "' (expected TOKEN=VALUE)"
  | build fault =>
    match fault with
    | .file cause => fault.text ++ ": " ++ cause.text
    | .document reason => fault.text ++ ": " ++ reason
    | _ => fault.text
  | output fault => fault.text

def message (fault : RunFault) : String :=
  match fault with
  | build (.sourceMissing _) => "Error: " ++ fault.text
  | _ => "Error while generating UML. " ++ fault.text

def status : RunFault → Nat
  | build (.sourceMissing _) => 2
  | _ => 1

end RunFault

def usageStatus : Nat := 2

def definitionHint : String :=
  "Macros are written TOKEN=VALUE, e.g. -D '$\x7bSCHEMA\x7d=public'"

def isQuiet (value : Option String) : Bool :=
  match value with
  | some text => text = "1" || lowered text.toList = "true".toList
  | none => false

def collectDefinitions (configured : List Definition) (texts : List String) :
    Except String (List Definition) :=
  (Definition.ofTexts texts).map (configured ++ ·)

def textOf (content : ByteArray) : Except FileFault String :=
  match String.fromUTF8? content with
  | some text => .ok text
  | none => .error .notUtf8

def sourceFault (path : String) (fault : FileFault) : Fault :=
  match fault with
  | .missing => .sourceMissing path
  | fault => .file fault

def written (diagram : String) : String :=
  diagram ++ "\n"

section Steps

variable {m : Type → Type} [Monad m]

abbrev Step (m : Type → Type) (α : Type) : Type := ExceptT RunFault m α

def loadConfiguration (host : Host m) (named : Option String) :
    m (Except Configuration.Fault Configuration) := do
  let path := named.getD Configuration.standardPath
  if ← host.isPresent path then
    match ← host.read path with
    | .error fault => return .error (.unreadable fault)
    | .ok content =>
      match textOf content with
      | .error fault => return .error (.unreadable fault)
      | .ok text => return Configuration.ofText text
  else if named.isSome then return .error (.missing path)
  else return .ok .empty

def loadSource (host : Host m) (path : String) (definitions : List Definition) :
    m (Except Fault String) := do
  match ← host.read path with
  | .error fault => return .error (sourceFault path fault)
  | .ok content =>
    match textOf content with
    | .error fault => return .error (sourceFault path fault)
    | .ok text => return .ok (substitute text definitions)

def emit (host : Host m) (diagram : String) (path : Option String) :
    m (Except FileFault Unit) := do
  match path with
  | some path => host.write path (written diagram).toUTF8
  | none =>
    host.out (written diagram)
    return .ok ()

def say (host : Host m) (line : String) : Step m Unit :=
  ExceptT.lift (host.err line)

def log (host : Host m) (filter : Filter) (level : Level) (target text : String) :
    Step m Unit :=
  if filter.shows level target then say host (level.title ++ " " ++ target ++ ": " ++ text)
  else pure ()

def logStage (host : Host m) (filter : Filter) (text : String) : Step m Unit :=
  log host filter .info "umlsketch" text

def logEvents (host : Host m) (filter : Filter) (events : List Event) : Step m Unit :=
  events.forM fun event => log host filter .debug "umlsketch::hook" event.text

def warn (host : Host m) (text : String) : Step m Unit :=
  say host ("⚠️ " ++ host.theme.apply .warn text)

def succeed (host : Host m) (text : String) : Step m Unit :=
  say host ("✅ " ++ host.theme.apply .success text)

def hint (host : Host m) (text : String) : Step m Unit :=
  say host ("   " ++ host.theme.apply .dim text)

def failure (host : Host m) (fault : RunFault) : String :=
  "❌ " ++ host.theme.apply .error fault.message

def lift {α ε : Type} (fault : ε → RunFault) (step : m (Except ε α)) : Step m α :=
  ExceptT.mk (do return (← step).mapError fault)

def readDefinitions (host : Host m) (configured : List Definition) (texts : List String) :
    Step m (List Definition) := do
  match collectDefinitions configured texts with
  | .ok definitions => return definitions
  | .error text =>
    hint host definitionHint
    throw (.definition text)

def kindOf (path : String) : Except Fault InputKind :=
  (InputKind.ofPath path).mapError .unknownExtension

def draw (host : Host m) (arguments : Arguments) (file : String) : Step m Unit := do
  let configuration ← lift .configuration (loadConfiguration host arguments.config)
  let asked ← host.environment? "RUST_LOG"
  let filter := Filter.choose asked (arguments.logLevel <|> configuration.logLevel)
  let definitions ← readDefinitions host configuration.definitions arguments.definitions
  let format := (arguments.format <|> configuration.format).getD .standard
  let kind ← lift .build (pure (kindOf file))
  logStage host filter
    ("Building " ++ kind.title ++ " diagram from " ++ file ++ " (" ++ format.word ++ ")")
  let source ← lift .build (loadSource host file definitions)
  let extracted := extract kind source
  logEvents host filter extracted.events
  let facts ← lift .build (pure extracted.result)
  let quiet := isQuiet (← host.environment? "UMLSKETCH_QUIET")
  if facts.isEmpty && !quiet then warn host ("No classes found in " ++ file)
  let drawn := render format facts
  logEvents host filter drawn.events
  lift .output (emit host drawn.result arguments.output)
  match arguments.output with
  | none => return
  | some path =>
    logStage host filter
      ("Wrote " ++ toString drawn.result.utf8ByteSize ++ " bytes to " ++ path)
    if !quiet then succeed host ("Diagram written to " ++ path)

def run (host : Host m) (words : List String) : m Nat := do
  match readArguments words with
  | .error (.notice notice) =>
    host.out notice.text
    return 0
  | .error (.fault fault) =>
    host.err fault.text
    return usageStatus
  | .ok arguments =>
    match ← (draw host arguments (arguments.file.getD "")).run with
    | .ok () => return 0
    | .error fault =>
      host.err (failure host fault)
      return fault.status

end Steps

end SourceDiagram.CommandLine
