import SourceDiagram.Proofs.CommandLine.Definitions
import SourceDiagram.Proofs.Files

set_option autoImplicit false

namespace SourceDiagram.CommandLine

open SourceDiagram.Model

-- What is known of a run before its source is opened.
structure Prepared (files : Files) (directory : List String) (arguments : Arguments) (file : String)
    (configuration : Configuration) (definitions : List Definition) (kind : InputKind) : Prop where
  named : arguments.file = some file
  configured : configurationIn files directory arguments.config = .ok configuration
  defined : arguments.definitions.map Definition.ofText? = definitions.map some
  known : InputKind.ofPath file = .ok kind

-- Whether a run comes to build its source, after the configured definitions and then its own are
-- substituted in it, and what the build results in.
def Builds (files : Files) (directory : List String) (arguments : Arguments)
    (result : Except Fault String) : Prop :=
  ∃ file configuration definitions kind text,
    Prepared files directory arguments file configuration definitions kind ∧
    files.read file directory = .ok text.toUTF8 ∧
    result = (build kind ((arguments.format <|> configuration.format).getD .plantUml)
      (substitute (substitute text configuration.definitions) definitions)).result

-- The fault that a run fails with. Whatever comes before its stage has none.
inductive Fails (files : Files) (directory : List String) (arguments : Arguments) : RunFault → Prop
  | configuration {fault : Configuration.Fault}
      (faulty : configurationIn files directory arguments.config = .error fault) :
      Fails files directory arguments (.configuration fault)
  | definition {configuration : Configuration} {text : String}
      (configured : configurationIn files directory arguments.config = .ok configuration)
      (undefined : arguments.definitions.find? (fun text => (Definition.ofText? text).isNone) =
        some text) :
      Fails files directory arguments (.definition text)
  | extension {file suffix : String} {configuration : Configuration} {definitions : List Definition}
      (named : arguments.file = some file)
      (configured : configurationIn files directory arguments.config = .ok configuration)
      (defined : arguments.definitions.map Definition.ofText? = definitions.map some)
      (unknown : InputKind.ofPath file = .error suffix) :
      Fails files directory arguments (.build (.unknownExtension suffix))
  | missing {file : String} {configuration : Configuration} {definitions : List Definition}
      {kind : InputKind}
      (prepared : Prepared files directory arguments file configuration definitions kind)
      (absent : files.read file directory = .error .missing) :
      Fails files directory arguments (.build (.sourceMissing file))
  | unreadable {file : String} {configuration : Configuration} {definitions : List Definition}
      {kind : InputKind} {cause : FileFault}
      (prepared : Prepared files directory arguments file configuration definitions kind)
      (unread : files.read file directory = .error cause) (other : cause ≠ .missing) :
      Fails files directory arguments (.build (.file cause))
  | undecodable {file : String} {configuration : Configuration} {definitions : List Definition}
      {kind : InputKind} {content : ByteArray}
      (prepared : Prepared files directory arguments file configuration definitions kind)
      (present : files.read file directory = .ok content)
      (foreign : ∀ text : String, content ≠ text.toUTF8) :
      Fails files directory arguments (.build (.file .notUtf8))
  | extraction (tableless : Builds files directory arguments (.error .noTable)) :
      Fails files directory arguments (.build .noTable)
  | output {diagram path : String} {cause : FileFault}
      (built : Builds files directory arguments (.ok diagram))
      (named : arguments.output = some path)
      (unwritten : files.write path (written diagram).toUTF8 directory = .error cause) :
      Fails files directory arguments (.output cause)

theorem text_of_utf8 (text : String) : textOf text.toUTF8 = .ok text := by
  have valid : text.toUTF8.IsValidUTF8 := text.isValidUTF8
  rw [textOf, String.fromUTF8?, dif_pos valid]
  rfl

theorem utf8_of_text {content : ByteArray} {text : String} (decoded : textOf content = .ok text) :
    content = text.toUTF8 := by
  rw [textOf, String.fromUTF8?] at decoded
  split at decoded
  · rename_i found
    cases decoded
    split at found
    · cases found
      rfl
    · cases found
  · cases decoded

theorem text_of_foreign {content : ByteArray} (foreign : ∀ text : String, content ≠ text.toUTF8) :
    textOf content = .error .notUtf8 := by
  rw [textOf]
  split
  · rename_i text found
    have decoded : textOf content = .ok text := by rw [textOf, found]
    exact absurd (utf8_of_text decoded) (foreign text)
  · rfl

theorem build_fault {kind : InputKind} {format : OutputFormat} {source : String} {fault : Fault}
    (faulty : (build kind format source).result = .error fault) : fault = .noTable := by
  cases kind with
  | schema =>
    rw [schema_built] at faulty
    split at faulty
    · cases faulty
      rfl
    · cases faulty
  | objectModel =>
    rw [object_model_built] at faulty
    cases faulty

section Stages

variable {files : Files} {directory : List String} {arguments : Arguments} {file : String}
  {configuration : Configuration} {definitions : List Definition} {kind : InputKind}

theorem prepared_diagram
    (prepared : Prepared files directory arguments file configuration definitions kind) :
    diagramFor files directory arguments file =
      (sourceIn files directory file (configuration.definitions ++ definitions)).mapError .build >>=
        fun source =>
          (build kind ((arguments.format <|> configuration.format).getD .plantUml) source).result
            |>.mapError .build := by
  have recognised : kindOf file = .ok kind := by
    rw [kindOf, prepared.known]
    rfl
  simp only [diagramFor, prepared.configured, collect_defined _ prepared.defined, recognised,
    Except.mapError, bind, Except.bind]

theorem missing_diagram
    (prepared : Prepared files directory arguments file configuration definitions kind)
    (absent : files.read file directory = .error .missing) :
    diagramFor files directory arguments file = .error (.build (.sourceMissing file)) := by
  rw [prepared_diagram prepared, sourceIn, textIn, absent]
  rfl

theorem unreadable_diagram {cause : FileFault}
    (prepared : Prepared files directory arguments file configuration definitions kind)
    (unread : textIn files directory file = .error cause) (other : cause ≠ .missing) :
    diagramFor files directory arguments file = .error (.build (.file cause)) := by
  rw [prepared_diagram prepared, sourceIn, unread]
  cases cause with
  | missing => exact absurd rfl other
  | _ => rfl

theorem built_diagram {result : Except Fault String}
    (built : Builds files directory arguments result) (given : arguments.file = some file) :
    diagramFor files directory arguments file = result.mapError .build := by
  obtain ⟨source, configuration, definitions, kind, text, prepared, content, rfl⟩ := built
  cases given.symm.trans prepared.named
  rw [prepared_diagram prepared, sourceIn, textIn, content]
  simp only [text_of_utf8, substitute_append]
  rfl

theorem built_outcome (world : World) {diagram : String}
    (built : Builds world.files world.directory arguments (.ok diagram))
    (given : arguments.file = some file) :
    outcome world arguments file = deliver world arguments.output diagram := by
  rw [outcome, built_diagram built given]
  rfl

theorem fails_outcome (world : World) {fault : RunFault} (given : arguments.file = some file)
    (fails : Fails world.files world.directory arguments fault) :
    outcome world arguments file = .error fault := by
  cases fails with
  | configuration faulty =>
    rw [outcome, diagramFor, faulty]
    rfl
  | definition configured undefined =>
    simp only [outcome, diagramFor, configured, collect_undefined _ undefined, Except.mapError,
      bind, Except.bind]
  | extension named configured defined unknown =>
    cases given.symm.trans named
    simp only [outcome, diagramFor, configured, collect_defined _ defined, kindOf, unknown,
      Except.mapError, bind, Except.bind]
  | missing prepared absent =>
    cases given.symm.trans prepared.named
    rw [outcome, missing_diagram prepared absent]
    rfl
  | unreadable prepared unread other =>
    cases given.symm.trans prepared.named
    rw [outcome, unreadable_diagram prepared (by rw [textIn, unread]) other]
    rfl
  | undecodable prepared present foreign =>
    cases given.symm.trans prepared.named
    have unread : textIn world.files world.directory file = .error .notUtf8 := by
      rw [textIn, present]
      exact text_of_foreign foreign
    rw [outcome, unreadable_diagram prepared unread (by simp)]
    rfl
  | extraction tableless =>
    rw [outcome, built_diagram tableless given]
    rfl
  | output built named unwritten =>
    rw [built_outcome world built given, named, deliver]
    simp only [unwritten]

theorem prepared_builds_or_fails
    (prepared : Prepared files directory arguments file configuration definitions kind) :
    (∃ diagram, Builds files directory arguments (.ok diagram)) ∨
      ∃ fault, Fails files directory arguments fault := by
  cases present : files.read file directory with
  | error cause =>
    by_cases absent : cause = .missing
    · subst absent
      exact .inr ⟨_, .missing prepared present⟩
    · exact .inr ⟨_, .unreadable prepared present absent⟩
  | ok content =>
    by_cases foreign : ∀ text : String, content ≠ text.toUTF8
    · exact .inr ⟨_, .undecodable prepared present foreign⟩
    · obtain ⟨text, rfl⟩ : ∃ text : String, content = text.toUTF8 := by simpa using foreign
      have builds : Builds files directory arguments _ := ⟨_, _, _, _, _, prepared, present, rfl⟩
      cases built : (build kind ((arguments.format <|> configuration.format).getD .plantUml)
        (substitute (substitute text configuration.definitions) definitions)).result with
      | error fault =>
        cases build_fault built
        exact .inr ⟨_, .extraction (built ▸ builds)⟩
      | ok diagram => exact .inl ⟨diagram, built ▸ builds⟩

theorem builds_or_fails (given : arguments.file = some file) :
    (∃ diagram, Builds files directory arguments (.ok diagram)) ∨
      ∃ fault, Fails files directory arguments fault := by
  cases configured : configurationIn files directory arguments.config with
  | error fault => exact .inr ⟨_, .configuration configured⟩
  | ok configuration =>
    cases defined : Definition.ofTexts arguments.definitions with
    | error text => exact .inr ⟨_, .definition configured (texts_undefined.mp defined)⟩
    | ok definitions =>
      rw [texts_defined] at defined
      cases known : InputKind.ofPath file with
      | error suffix => exact .inr ⟨_, .extension given configured defined known⟩
      | ok kind => exact prepared_builds_or_fails ⟨given, configured, defined, known⟩

theorem builds_unique {first second : Except Fault String}
    (built : Builds files directory arguments first)
    (again : Builds files directory arguments second) : first = second := by
  have ⟨file, _, _, _, _, prepared, _⟩ := built
  have same := (built_diagram built prepared.named).symm.trans (built_diagram again prepared.named)
  cases first <;> cases second <;> cases same <;> rfl

end Stages

theorem status_cases (fault : RunFault) :
    (∃ path, fault = .build (.sourceMissing path) ∧ fault.status = 2) ∨ fault.status = 1 := by
  cases fault with
  | build cause =>
    cases cause with
    | sourceMissing path => exact .inl ⟨path, rfl, rfl⟩
    | _ => exact .inr rfl
  | _ => exact .inr rfl

theorem status_ne_zero (fault : RunFault) : fault.status ≠ 0 := by
  rcases status_cases fault with ⟨_, _, two⟩ | one
  · simp [two]
  · simp [one]

-- Whether a diagram is where a run brings it: printed, or in the file that the run names for it.
-- Nothing else is printed or written.
def Delivered (files : Files) (directory : List String) (diagram : String) (final : World) :
    Option String → Prop
  | none => final.output = diagram ++ "\n" ∧ final.files = files
  | some path =>
    final.output = "" ∧ files.Written directory path (diagram ++ "\n").toUTF8 final.files

section Runs

variable {files : Files} {directory : List String} {environment : List (String × String)}
  {words : List String} {arguments : Arguments} {diagram : String} {after : World}

theorem deliver_delivers {output : Option String}
    (done : deliver (World.start files environment directory) output diagram = .ok after)
    (errors : List String) :
    Delivered files directory diagram { after with errors } output := by
  cases output with
  | none =>
    cases done
    exact ⟨String.empty_append, rfl⟩
  | some path =>
    rw [deliver] at done
    split at done
    · cases done
    · rename_i opened
      cases done
      exact ⟨rfl, Files.write_written opened⟩

theorem deliver_opens (environment : List (String × String)) (output : Option String)
    (opens : ∀ path, output = some path → files.Opens directory path) :
    ∃ after, deliver (World.start files environment directory) output diagram = .ok after := by
  cases output with
  | none => exact ⟨_, rfl⟩
  | some path =>
    obtain ⟨changed, done⟩ :=
      (Files.write_opens files directory path (written diagram).toUTF8).mpr (opens path rfl)
    refine ⟨{ World.start files environment directory with files := changed }, ?_⟩
    rw [deliver, World.start]
    simp only [done]

theorem unwritten_fails {fault : RunFault} (built : Builds files directory arguments (.ok diagram))
    (refused : deliver (World.start files environment directory) arguments.output diagram =
      .error fault) :
    Fails files directory arguments fault := by
  cases named : arguments.output with
  | none =>
    rw [named] at refused
    cases refused
  | some path =>
    rw [named, deliver] at refused
    split at refused
    · rename_i unwritten
      cases refused
      exact .output built named unwritten
    · cases refused

theorem failing_run {fault : RunFault} (understood : readArguments words = .ok arguments)
    (environment : List (String × String)) (fails : Fails files directory arguments fault) :
    ∃ reports, (World.start files environment directory).run words =
      (fault.status,
        { World.start files environment directory with
          errors := reports ++ World.linesOf ("❌ " ++ fault.message) }) := by
  obtain ⟨file, given⟩ := file_given understood
  obtain ⟨more, ran⟩ := run_settles understood given (World.start files environment directory)
  rw [fails_outcome _ given fails] at ran
  exact ⟨more, ran⟩

theorem finishing_run (understood : readArguments words = .ok arguments)
    (built : Builds files directory arguments (.ok diagram))
    (done : deliver (World.start files environment directory) arguments.output diagram =
      .ok after) :
    ∃ errors, (World.start files environment directory).run words = (0, { after with errors }) := by
  obtain ⟨file, given⟩ := file_given understood
  obtain ⟨more, ran⟩ := run_settles understood given (World.start files environment directory)
  rw [built_outcome _ built given, done] at ran
  exact ⟨more, ran⟩

theorem delivers_or_fails (understood : readArguments words = .ok arguments) (files : Files)
    (directory : List String) (environment : List (String × String)) :
    (∃ diagram after, Builds files directory arguments (.ok diagram) ∧
      deliver (World.start files environment directory) arguments.output diagram = .ok after) ∨
    ∃ fault, Fails files directory arguments fault := by
  obtain ⟨file, given⟩ := file_given understood
  rcases builds_or_fails given with ⟨diagram, built⟩ | ⟨fault, fails⟩
  · cases done : deliver (World.start files environment directory) arguments.output diagram with
    | ok after => exact .inl ⟨diagram, after, built, done⟩
    | error fault => exact .inr ⟨fault, unwritten_fails built done⟩
  · exact .inr ⟨fault, fails⟩

variable {status : Nat} {final : World}

theorem run_tells_fault (understood : readArguments words = .ok arguments)
    (ran : (World.start files environment directory).run words = (status, final)) {fault : RunFault}
    (fails : Fails files directory arguments fault) :
    status = fault.status ∧ final.output = "" ∧ final.files = files ∧
      ∃ reports, final.errors = reports ++ World.linesOf ("❌ " ++ fault.message) := by
  obtain ⟨reports, failed⟩ := failing_run understood environment fails
  cases ran.symm.trans failed
  exact ⟨rfl, rfl, rfl, reports, rfl⟩

theorem finishes_or_fails (understood : readArguments words = .ok arguments)
    (ran : (World.start files environment directory).run words = (status, final)) :
    (status = 0 ∧ ∃ diagram, Builds files directory arguments (.ok diagram) ∧
      Delivered files directory diagram final arguments.output) ∨
    status ≠ 0 ∧ ∃ fault, Fails files directory arguments fault := by
  rcases delivers_or_fails understood files directory environment with
    ⟨diagram, after, built, done⟩ | ⟨fault, fails⟩
  · obtain ⟨errors, finished⟩ := finishing_run understood built done
    cases ran.symm.trans finished
    exact .inl ⟨rfl, diagram, built, deliver_delivers done errors⟩
  · refine .inr ⟨?_, fault, fails⟩
    rw [(run_tells_fault understood ran fails).1]
    exact status_ne_zero fault

-- A run that finishes brings the one diagram that its source is built into to where it belongs. A
-- run that builds a diagram and can open the file for it finishes.
theorem finished_runs_deliver_what_is_built (understood : readArguments words = .ok arguments)
    (ran : (World.start files environment directory).run words = (status, final)) :
    (status = 0 → ∃ diagram,
      (∀ result, Builds files directory arguments result ↔ result = .ok diagram) ∧
      Delivered files directory diagram final arguments.output) ∧
    ((∃ diagram, Builds files directory arguments (.ok diagram)) →
      (∀ path, arguments.output = some path → files.Opens directory path) → status = 0) := by
  constructor
  · intro finished
    rcases finishes_or_fails understood ran with ⟨-, diagram, built, there⟩ | ⟨failed, -⟩
    · refine ⟨diagram, fun result => ⟨fun again => builds_unique again built, ?_⟩, there⟩
      rintro rfl
      exact built
    · exact absurd finished failed
  · rintro ⟨diagram, built⟩ opens
    obtain ⟨after, done⟩ := deliver_opens environment arguments.output opens
    obtain ⟨errors, finished⟩ := finishing_run understood built done
    exact congrArg Prod.fst (ran.symm.trans finished)

def chainedSettings : String :=
  "format = \"json\"\n[[macro]]\ntoken = \"$T\"\nvalue = \"$S\"\n"

def chainedConfiguration : Configuration := ⟨none, some .json, none, [⟨"$T", "$S"⟩]⟩

def chainedFiles : Files :=
  ⟨[(["home", "umlsketch.toml"], .file chainedSettings.toUTF8),
    (["home", "a.sql"], .file "CREATE TABLE t (a $T);".toUTF8),
    (["tmp", "b.json"], .file "old".toUTF8)]⟩

def chainedWords : List String := ["-D$S=int", "../home/a.sql", "--output", "/tmp/b.json"]

def chainedArguments : Arguments :=
  ⟨some "../home/a.sql", none, none, some "/tmp/b.json", none, ["$S=int"]⟩

theorem chained_configured :
    configurationIn chainedFiles ["home"] none = .ok chainedConfiguration := by
  have present : chainedFiles.isPresent "umlsketch.toml" ["home"] = true := by decide +kernel
  have content : textIn chainedFiles ["home"] "umlsketch.toml" = .ok chainedSettings :=
    text_of_utf8 chainedSettings
  have read : Configuration.ofText chainedSettings = .ok chainedConfiguration := by decide +kernel
  simp only [configurationIn, Option.getD_none, Configuration.standardPath, present, if_true,
    content, read]

-- The value of the configured definition is the token of the one that the run has.
theorem run_with_chained_definitions :
    (readArguments chainedWords = .ok chainedArguments ∧
      ∃ ended, (World.start chainedFiles [] ["home"]).run chainedWords = (0, ended)) ∧
    ∃ diagram, (build .schema .json "CREATE TABLE t (a int);").result = .ok diagram ∧
      Delivered chainedFiles ["home"] diagram
        ((World.start chainedFiles [] ["home"]).run chainedWords).2 (some "/tmp/b.json") := by
  have understood : readArguments chainedWords = .ok chainedArguments := by decide +kernel
  have prepared : Prepared chainedFiles ["home"] chainedArguments "../home/a.sql"
      chainedConfiguration [⟨"$S", "int"⟩] .schema :=
    ⟨rfl, chained_configured, by decide +kernel, by decide +kernel⟩
  have substituted :
      substitute (substitute "CREATE TABLE t (a $T);" chainedConfiguration.definitions)
        [⟨"$S", "int"⟩] = "CREATE TABLE t (a int);" := by decide +kernel
  have built : Builds chainedFiles ["home"] chainedArguments
      (build .schema .json "CREATE TABLE t (a int);").result :=
    ⟨_, _, _, _, _, prepared, rfl, by rw [substituted]; rfl⟩
  have table : Schema.after ["CREATE TABLE t (a int);"] ≠ [] := by decide +kernel
  have drawn := (schema_built .json "CREATE TABLE t (a int);").trans (if_neg table)
  have opens : chainedFiles.Opens ["home"] "/tmp/b.json" :=
    ⟨["tmp", "b.json"], .full, by decide +kernel, .known rfl rfl⟩
  have ran : (World.start chainedFiles [] ["home"]).run chainedWords =
      (((World.start chainedFiles [] ["home"]).run chainedWords).1, _) := rfl
  obtain ⟨delivers, finishes⟩ := finished_runs_deliver_what_is_built understood ran
  have finished := finishes ⟨_, drawn ▸ built⟩ fun path named => Option.some.inj named ▸ opens
  obtain ⟨diagram, only, there⟩ := delivers finished
  exact ⟨⟨understood, _, Prod.ext finished rfl⟩, diagram, (only _).mp built, there⟩

theorem missing_fails {path : String}
    (fails : Fails files directory arguments (.build (.sourceMissing path))) :
    ∃ configuration definitions kind,
      Prepared files directory arguments path configuration definitions kind ∧
      files.read path directory = .error .missing := by
  cases fails with
  | missing prepared absent => exact ⟨_, _, _, prepared, absent⟩

theorem fails_unique {first second : RunFault} (understood : readArguments words = .ok arguments)
    (fails : Fails files directory arguments first)
    (again : Fails files directory arguments second) :
    first = second := by
  obtain ⟨file, given⟩ := file_given understood
  have same := (fails_outcome (World.start files [] directory) given fails).symm.trans
    (fails_outcome (World.start files [] directory) given again)
  cases same
  rfl

theorem failed_run_keeps
    (ran : (World.start files environment directory).run words = (status, final))
    (failed : status ≠ 0) : final.output = "" ∧ final.files = files := by
  cases understood : readArguments words with
  | error halt =>
    rcases run_halts (World.start files environment directory) understood with
      ⟨output, noticed⟩ | ⟨errors, refused⟩
    · exact absurd (congrArg Prod.fst (ran.symm.trans noticed)) failed
    · cases ran.symm.trans refused
      exact ⟨rfl, rfl⟩
  | ok arguments =>
    rcases finishes_or_fails understood ran with ⟨finished, -⟩ | ⟨-, fault, fails⟩
    · exact absurd finished failed
    · obtain ⟨-, output, unchanged, -⟩ := run_tells_fault understood ran fails
      exact ⟨output, unchanged⟩

section Understood

variable (understood : readArguments words = .ok arguments)
  (ran : (World.start files environment directory).run words = (status, final))

include understood ran

theorem fails_iff_status : status ≠ 0 ↔ ∃ fault, Fails files directory arguments fault := by
  constructor
  · intro failed
    rcases finishes_or_fails understood ran with ⟨finished, -⟩ | ⟨-, fails⟩
    · exact absurd finished failed
    · exact fails
  · rintro ⟨fault, fails⟩
    rw [(run_tells_fault understood ran fails).1]
    exact status_ne_zero fault

theorem failing_status (failed : status ≠ 0) :
    (status = 2 ∧ ∃ path, Fails files directory arguments (.build (.sourceMissing path))) ∨
      status = 1 := by
  obtain ⟨fault, fails⟩ := (fails_iff_status understood ran).mp failed
  have told := (run_tells_fault understood ran fails).1
  rcases status_cases fault with ⟨path, rfl, two⟩ | one
  · exact .inl ⟨told.trans two, path, fails⟩
  · exact .inr (told.trans one)

theorem missing_iff_status :
    status = 2 ↔ ∃ file configuration definitions kind,
      Prepared files directory arguments file configuration definitions kind ∧
      files.read file directory = .error .missing := by
  constructor
  · rintro rfl
    rcases failing_status understood ran (by decide) with ⟨-, path, fails⟩ | one
    · exact ⟨path, missing_fails fails⟩
    · cases one
  · rintro ⟨file, configuration, definitions, kind, prepared, absent⟩
    exact (run_tells_fault understood ran (.missing prepared absent)).1

end Understood

-- A run that fails prints nothing and changes no file, whatever its arguments are. If they are
-- understood, its status is 2 where nothing but the missing source keeps it from being read, and 1
-- otherwise, and it reports the fault of the first stage that has one.
theorem failed_runs_leave_no_trace
    (ran : (World.start files environment directory).run words = (status, final)) :
    (status ≠ 0 → final.output = "" ∧ final.files = files) ∧
    ∀ arguments, readArguments words = .ok arguments →
      (status ≠ 0 ↔ ∃ fault, Fails files directory arguments fault) ∧
      (status = 2 ↔ ∃ file configuration definitions kind,
        Prepared files directory arguments file configuration definitions kind ∧
        files.read file directory = .error .missing) ∧
      (status ≠ 0 → status ≠ 2 → status = 1) ∧
      ∀ fault, Fails files directory arguments fault →
        (∀ other, Fails files directory arguments other → other = fault) ∧
        ∃ reports, final.errors = reports ++ World.linesOf ("❌ " ++ fault.message) := by
  refine ⟨failed_run_keeps ran, fun arguments understood => ?_⟩
  refine ⟨fails_iff_status understood ran, missing_iff_status understood ran, ?_, ?_⟩
  · intro failed present
    rcases failing_status understood ran failed with ⟨missing, -⟩ | one
    · exact absurd missing present
    · exact one
  · intro fault fails
    obtain ⟨-, -, -, reports⟩ := run_tells_fault understood ran fails
    exact ⟨fun other again => fails_unique understood again fails, reports⟩

-- What stands in the file for the diagram is kept, and a definition that is none is told before a
-- source that is missing.
theorem run_without_source :
    (readArguments ["a.py", "-o/tmp/b.json"] =
        .ok ⟨some "a.py", none, none, some "/tmp/b.json", none, []⟩ ∧
      readArguments ["a.py", "-Dx"] = .ok ⟨some "a.py", none, none, none, none, ["x"]⟩) ∧
    (∃ kept, (World.start chainedFiles [] ["home"]).run ["a.py", "-o/tmp/b.json"] = (2, kept) ∧
      kept.output = "" ∧ kept.files = chainedFiles ∧
      ∃ reports, kept.errors = reports ++ ["❌ Error: File not found: a.py"]) ∧
    ∃ kept, (World.start chainedFiles [] ["home"]).run ["a.py", "-Dx"] = (1, kept) ∧ ∃ reports,
      kept.errors = reports ++
        ["❌ Error while generating UML. invalid macro definition 'x' (expected TOKEN=VALUE)"] := by
  have named : readArguments ["a.py", "-o/tmp/b.json"] =
      .ok ⟨some "a.py", none, none, some "/tmp/b.json", none, []⟩ := by decide +kernel
  have defining : readArguments ["a.py", "-Dx"] =
      .ok ⟨some "a.py", none, none, none, none, ["x"]⟩ := by decide +kernel
  have prepared : Prepared chainedFiles ["home"]
      ⟨some "a.py", none, none, some "/tmp/b.json", none, []⟩ "a.py" chainedConfiguration [] .objectModel := ⟨rfl, chained_configured, rfl, by decide +kernel⟩
  have absent : chainedFiles.read "a.py" ["home"] = .error .missing := rfl
  have undefined : Fails chainedFiles ["home"] ⟨some "a.py", none, none, none, none, ["x"]⟩
      (.definition "x") := .definition chained_configured (by decide +kernel)
  have ran : (World.start chainedFiles [] ["home"]).run ["a.py", "-o/tmp/b.json"] =
      (((World.start chainedFiles [] ["home"]).run ["a.py", "-o/tmp/b.json"]).1, _) := rfl
  obtain ⟨untouched, missing⟩ := failed_runs_leave_no_trace ran
  obtain ⟨failing, two, -, told⟩ := missing _ named
  have rerun : (World.start chainedFiles [] ["home"]).run ["a.py", "-Dx"] =
      (((World.start chainedFiles [] ["home"]).run ["a.py", "-Dx"]).1, _) := rfl
  obtain ⟨-, refused⟩ := failed_runs_leave_no_trace rerun
  obtain ⟨failed, other, one, reported⟩ := refused _ defining
  have gone := Fails.missing prepared absent
  have status := two.mpr ⟨_, _, _, _, prepared, absent⟩
  obtain ⟨silent, kept⟩ := untouched (failing.mpr ⟨_, gone⟩)
  have present : ((World.start chainedFiles [] ["home"]).run ["a.py", "-Dx"]).1 ≠ 2 := by
    intro two
    obtain ⟨file, configuration, definitions, kind, prepared, absent⟩ := other.mp two
    cases (reported _ undefined).1 _ (.missing prepared absent)
  exact ⟨⟨named, defining⟩, ⟨_, Prod.ext status rfl, silent, kept, (told _ gone).2⟩,
    _, Prod.ext (one (failed.mpr ⟨_, undefined⟩) present) rfl, (reported _ undefined).2⟩

end Runs

end SourceDiagram.CommandLine
