import SourceDiagram.Proofs.Build
import SourceDiagram.Proofs.CommandLine.Steps

set_option autoImplicit false

namespace SourceDiagram.CommandLine

open SourceDiagram.Model

def textIn (files : Files) (directory : List String) (path : String) : Except FileFault String :=
  match files.read path directory with
  | .error cause => .error cause
  | .ok content => textOf content

def configurationIn (files : Files) (directory : List String) (named : Option String) :
    Except Configuration.Fault Configuration :=
  if files.isPresent (named.getD Configuration.standardPath) directory then
    match textIn files directory (named.getD Configuration.standardPath) with
    | .error cause => .error (.unreadable cause)
    | .ok text => Configuration.ofText text
  else if named.isSome then .error (.missing (named.getD Configuration.standardPath))
  else .ok .empty

def sourceIn (files : Files) (directory : List String) (path : String)
    (definitions : List Definition) : Except Fault String :=
  match textIn files directory path with
  | .error cause => .error (sourceFault path cause)
  | .ok text => .ok (substitute text definitions)

def diagramFor (files : Files) (directory : List String) (arguments : Arguments) (file : String) :
    Except RunFault String := do
  let configuration ← (configurationIn files directory arguments.config).mapError .configuration
  let definitions ← (collectDefinitions configuration.definitions arguments.definitions).mapError
    .definition
  let kind ← (kindOf file).mapError .build
  let source ← (sourceIn files directory file definitions).mapError .build
  let format := (arguments.format <|> configuration.format).getD .plantUml
  (build kind format source).result.mapError .build

def deliver (world : World) (output : Option String) (diagram : String) : Except RunFault World :=
  match output with
  | none => .ok { world with output := world.output ++ written diagram }
  | some path =>
    match world.files.write path (written diagram).toUTF8 world.directory with
    | .error cause => .error (.output cause)
    | .ok files => .ok { world with files }

-- The world that a run leaves, but for its reports, or the fault that it ends with.
def outcome (world : World) (arguments : Arguments) (file : String) : Except RunFault World :=
  diagramFor world.files world.directory arguments file >>= deliver world arguments.output

theorem state_bind {α β : Type} (first : StateM World α) (rest : α → StateM World β)
    (world : World) :
    (first >>= rest).run world = (rest (first.run world).1).run (first.run world).2 :=
  rfl

theorem read_runs (path : String) (world : World) :
    (World.host.read path).run world = (world.files.read path world.directory, world) :=
  rfl

theorem presence_runs (path : String) (world : World) :
    (World.host.isPresent path).run world = (world.files.isPresent path world.directory, world) :=
  rfl

theorem configuration_runs (named : Option String) (world : World) :
    (loadConfiguration World.host named).run world =
      (configurationIn world.files world.directory named, world) := by
  rw [loadConfiguration, configurationIn, textIn, state_bind, presence_runs]
  split
  · rw [state_bind, read_runs]
    cases world.files.read _ world.directory with
    | error cause => rfl
    | ok content =>
      dsimp only
      cases textOf content with
      | error cause => rfl
      | ok text => rfl
  · split
    · rfl
    · rfl

theorem source_runs (path : String) (definitions : List Definition) (world : World) :
    (loadSource World.host path definitions).run world =
      (sourceIn world.files world.directory path definitions, world) := by
  rw [loadSource, sourceIn, textIn, state_bind, read_runs]
  cases world.files.read path world.directory with
  | error cause => rfl
  | ok content =>
    dsimp only
    cases textOf content with
    | error cause => rfl
    | ok text => rfl

theorem configuration_ends (named : Option String) (world : World) :
    Ends (lift .configuration (loadConfiguration World.host named)) world
      ((configurationIn world.files world.directory named).mapError .configuration) world :=
  lift_ends _ _ fun errors => configuration_runs named { world with errors }

theorem source_ends (path : String) (definitions : List Definition) (world : World) :
    Ends (lift .build (loadSource World.host path definitions)) world
      ((sourceIn world.files world.directory path definitions).mapError .build) world :=
  lift_ends _ _ fun errors => source_runs path definitions { world with errors }

theorem definitions_end (configured : List Definition) (texts : List String) (world : World) :
    Ends (readDefinitions World.host configured texts) world
      ((collectDefinitions configured texts).mapError .definition) world := by
  rw [readDefinitions]
  cases collectDefinitions configured texts with
  | ok definitions => exact .pure _ world
  | error text => exact .bind (say_ends _ world) (.throw _ world)

-- A step has an outcome: it ends in the world that is left, or with the fault where it began.
def Settles (step : Step (StateM World) Unit) (world : World) : Except RunFault World → Prop
  | .ok after => Ends step world (.ok ()) after
  | .error fault => Ends step world (.error fault) world

section Drawing

variable {α : Type} {world : World} {first : Step (StateM World) α}
  {rest : α → Step (StateM World) Unit} {result : Except RunFault World}

theorem Settles.after_report {value : α} (head : Ends first world (.ok value) world)
    (tail : Settles (rest value) world result) : Settles (first >>= rest) world result := by
  cases result with
  | ok after => exact .bind head tail
  | error fault => exact .bind head tail

theorem Settles.stage {value : Except RunFault α} {next : α → Except RunFault World}
    (head : Ends first world value world)
    (tail : ∀ given, Settles (rest given) world (next given)) :
    Settles (first >>= rest) world (value >>= next) := by
  cases value with
  | error fault => exact .fault head
  | ok given => exact .after_report head (tail given)

theorem Settles.before_reports {first : Step (StateM World) Unit} {rest : Step (StateM World) Unit}
    (head : Settles first world result) (reports : ∀ after, Ends rest after (.ok ()) after) :
    Settles (first >>= fun _ => rest) world result := by
  cases result with
  | ok after => exact .bind head (reports after)
  | error fault => exact .fault head

end Drawing

theorem write_runs (path : String) (content : ByteArray) (world : World) :
    (World.host.write path content).run world =
      match world.files.write path content world.directory with
      | .error cause => (.error cause, world)
      | .ok files => (.ok (), { world with files }) := by
  have ran : (World.host.write path content).run world =
      (match world.files.write path content world.directory with
        | .error cause => pure (.error cause)
        | .ok files => do
          modify fun world => { world with files }
          return .ok () : StateM World (Except FileFault Unit)).run world := rfl
  rw [ran]
  cases world.files.write path content world.directory with
  | error cause => rfl
  | ok files => rfl

theorem emit_settles (diagram : String) (output : Option String) (world : World) :
    Settles (lift .output (emit World.host diagram output)) world (deliver world output diagram) := by
  cases output with
  | none => exact lift_ends _ (.ok ()) fun _ => rfl
  | some path =>
    rw [deliver]
    cases done : world.files.write path (written diagram).toUTF8 world.directory with
    | error cause =>
      exact lift_ends _ (.error cause) fun errors => by
        rw [emit, write_runs, done]
    | ok files =>
      exact lift_ends _ (.ok ()) fun errors => by
        rw [emit, write_runs, done]

theorem build_stage (kind : InputKind) (format : OutputFormat) (source : String) :
    (build kind format source).result.mapError RunFault.build =
      (extract kind source).result.mapError RunFault.build >>= fun facts =>
        .ok (render format facts).result := by
  rw [build_result]
  cases (extract kind source).result with
  | error fault => rfl
  | ok facts => rfl

theorem delivery_settles (filter : Filter) (events : List Event) (diagram : String)
    (output : Option String) (quiet : Bool) (world : World) :
    Settles (do
      logEvents World.host filter events
      lift .output (emit World.host diagram output)
      match output with
      | none => return
      | some path =>
        logStage World.host filter
          ("Wrote " ++ toString diagram.utf8ByteSize ++ " bytes to " ++ path)
        if !quiet then succeed World.host ("Diagram written to " ++ path))
      world (deliver world output diagram) := by
  refine .after_report (log_events_end filter events world) ?_
  refine .before_reports (emit_settles diagram output world) fun after => ?_
  cases output with
  | none => exact .pure () after
  | some path =>
    refine .bind (log_ends filter .info _ _ after) ?_
    split
    · exact say_ends _ after
    · exact .pure () after

theorem draw_settles (arguments : Arguments) (file : String) (world : World) :
    Settles (draw World.host arguments file) world (outcome world arguments file) := by
  rw [outcome, diagramFor, draw]
  simp only [bind_assoc]
  refine .stage (configuration_ends arguments.config world) fun configuration => ?_
  refine .after_report (asked_ends _ world) ?_
  refine .stage (definitions_end _ _ world) fun definitions => ?_
  refine .stage (known_ends _ _ world) fun kind => ?_
  refine .after_report (log_ends _ _ _ _ world) ?_
  refine .stage (source_ends file definitions world) fun source => ?_
  refine .after_report (log_events_end _ _ world) ?_
  rw [build_stage, bind_assoc]
  refine .stage (known_ends _ _ world) fun facts => ?_
  refine .after_report (asked_ends _ world) ?_
  split
  · exact .after_report (say_ends _ world) (delivery_settles _ _ _ _ _ world)
  · exact delivery_settles _ _ _ _ _ world

theorem file_given {words : List String} {arguments : Arguments}
    (understood : readArguments words = .ok arguments) : ∃ file, arguments.file = some file := by
  rw [readArguments] at understood
  cases taken : Progress.start.takeAll words with
  | error halt => simp [taken, bind, Except.bind] at understood
  | ok progress =>
    cases settled : progress.settle with
    | error halt => simp [taken, settled, bind, Except.bind] at understood
    | ok found =>
      cases file : found.file with
      | none =>
        simp [taken, settled, file, bind, Except.bind, throw, throwThe, MonadExceptOf.throw]
          at understood
      | some path =>
        simp [taken, settled, file, bind, Except.bind, pure, Except.pure] at understood
        exact ⟨path, understood ▸ file⟩

section Runs

variable {words : List String} {arguments : Arguments} {file : String}

theorem run_draws (understood : readArguments words = .ok arguments)
    (given : arguments.file = some file) (world : World) :
    world.run words =
      match (draw World.host arguments file).run.run world with
      | (.ok (), after) => (0, after)
      | (.error fault, after) =>
        (fault.status,
          { after with errors := after.errors ++ World.linesOf ("❌ " ++ fault.message) }) := by
  rw [World.run, run, understood]
  simp only [given, Option.getD_some]
  rw [state_bind]
  generalize (draw World.host arguments file).run.run world = ran
  obtain ⟨result, after⟩ := ran
  cases result with
  | ok _ => rfl
  | error fault => rfl

theorem run_settles (understood : readArguments words = .ok arguments)
    (given : arguments.file = some file) (world : World) :
    ∃ more, world.run words =
      match outcome world arguments file with
      | .ok after => (0, { after with errors := world.errors ++ more })
      | .error fault =>
        (fault.status,
          { world with errors := world.errors ++ more ++ World.linesOf ("❌ " ++ fault.message) }) := by
  have settled := draw_settles arguments file world
  cases left : outcome world arguments file with
  | ok after =>
    rw [left] at settled
    obtain ⟨more, drawn⟩ := settled world.errors
    exact ⟨more, by rw [run_draws understood given, drawn]⟩
  | error fault =>
    rw [left] at settled
    obtain ⟨more, drawn⟩ := settled world.errors
    exact ⟨more, by rw [run_draws understood given, drawn]⟩

end Runs

theorem run_halts {words : List String} {halt : Halt} (world : World)
    (halted : readArguments words = .error halt) :
    (∃ output, world.run words = (0, { world with output })) ∨
      ∃ errors, world.run words = (usageStatus, { world with errors }) := by
  rw [World.run, run, halted]
  cases halt with
  | fault cause => exact .inr ⟨_, rfl⟩
  | notice notice => exact .inl ⟨_, rfl⟩

end SourceDiagram.CommandLine
