import SourceDiagram.Model.Coding
import SourceDiagram.Report
import SourceDiagram.Substitution
import SourceDiagram.Toml.Reader

set_option autoImplicit false

namespace SourceDiagram

open SourceDiagram.Json
open SourceDiagram.Model

instance : Coded Definition where
  encode definition :=
    .object [("token", encode definition.token), ("value", encode definition.value)]
  decode? value :=
    (value.fields? ["token", "value"] 0).bind <|
      takePart required? fun token =>
      takePart required? fun value =>
      partsTaken ⟨token, value⟩

structure Configuration where
  logLevel : Option String
  format : Option OutputFormat
  encoding : Option String
  definitions : List Definition
deriving DecidableEq, Repr

namespace Configuration

def empty : Configuration :=
  ⟨none, none, none, []⟩

def standardPath : String := "umlsketch.toml"

instance : Coded Configuration where
  encode configuration :=
    .object
      [("log_level", encode configuration.logLevel), ("format", encode configuration.format),
        ("encoding", encode configuration.encoding), ("macro", encode configuration.definitions)]
  decode? value :=
    (value.fields? ["log_level", "format", "encoding", "macro"] 1).bind <|
      takePart (optional? none) fun logLevel =>
      takePart (optional? none) fun format =>
      takePart (optional? none) fun encoding =>
      takePart (optional? []) fun definitions =>
      partsTaken ⟨logLevel, format, encoding, definitions⟩

def textAt? (key : String) (entries : List (String × Toml.Node)) : Option (Option String) :=
  match Toml.Node.lookup? key entries with
  | none => some none
  | some (.text value) => some (some value)
  | some _ => none

def isEmptyTable : Toml.Node → Bool
  | .table _ [] => true
  | _ => false

def choice? : Toml.Node → Option String
  | .text word => some word
  | .table _ [(word, value)] => if isEmptyTable value then some word else none
  | _ => none

def formatOf? (entries : List (String × Toml.Node)) : Option (Option OutputFormat) :=
  match Toml.Node.lookup? "format" entries with
  | none => some none
  | some value => do
    let word ← choice? value
    let format ← OutputFormat.all.find? fun format => format.word = word
    return some format

-- The definition that a table or the first two items of an array are.
def definitionOf? : Toml.Node → Option Definition
  | .table _ entries => do
    return ⟨← (← textAt? "token" entries), ← (← textAt? "value" entries)⟩
  | .array (.text token :: .text value :: _) => some ⟨token, value⟩
  | _ => none

def definitionsOf? (entries : List (String × Toml.Node)) : Option (List Definition) :=
  match Toml.Node.lookup? "macro" entries with
  | none => some []
  | some (.array items) => items.mapM definitionOf?
  | some (.rows tables) => tables.mapM definitionOf?
  | some _ => none

def ofNode? : Toml.Node → Option Configuration
  | .table _ entries => do
    return ⟨← textAt? "log_level" entries, ← formatOf? entries, ← textAt? "encoding" entries,
      ← definitionsOf? entries⟩
  | _ => none

-- Whether the name of an encoding is one of UTF-8. Only ASCII letters have its letters as lower
-- case.
def isUtf8 (name : String) : Bool :=
  (name.toList.map Char.toLower).filter (fun c => !(c == '-' || c == '_')) == "utf8".toList

inductive Fault
  | missing (path : String)
  | unreadable (cause : FileFault)
  | malformed
  | encodingRefused (name : String)
deriving DecidableEq, Repr

def Fault.text : Fault → String
  | missing path => "config file not found: " ++ path
  | unreadable cause => cause.text
  | malformed => "TOML parse error"
  | encodingRefused name => "unsupported encoding '" ++ name ++ "' (only utf-8 is supported)"

def validate (configuration : Configuration) : Except Fault Configuration :=
  match configuration.encoding with
  | none => .ok configuration
  | some name => if isUtf8 name then .ok configuration else .error (.encodingRefused name)

def ofText (text : String) : Except Fault Configuration :=
  match (Toml.read? text).bind ofNode? with
  | none => .error .malformed
  | some configuration => validate configuration

end Configuration

end SourceDiagram
