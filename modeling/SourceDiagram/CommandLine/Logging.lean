import SourceDiagram.Text.Characters

set_option autoImplicit false

namespace SourceDiagram.CommandLine

inductive Level
  | error | warn | info | debug | trace
deriving DecidableEq, Repr

namespace Level

def all : List Level := [error, warn, info, debug, trace]

def word : Level → String
  | error => "error"
  | warn => "warn"
  | info => "info"
  | debug => "debug"
  | trace => "trace"

def title : Level → String
  | error => "ERROR"
  | warn => "WARN"
  | info => "INFO"
  | debug => "DEBUG"
  | trace => "TRACE"

def rank : Level → Nat
  | error => 1
  | warn => 2
  | info => 3
  | debug => 4
  | trace => 5

end Level

abbrev Threshold := Option Level

def Threshold.shows (threshold : Threshold) (level : Level) : Bool :=
  match threshold with
  | some least => level.rank ≤ least.rank
  | none => false

def lowered (cs : List Char) : List Char :=
  cs.map Char.toLower

def Threshold.ofWord? (cs : List Char) : Option Threshold :=
  if cs = [] then some (some .error)
  else if lowered cs = "off".toList then some none
  else
    match Level.all.find? fun level => lowered cs = level.word.toList with
    | some level => some (some level)
    | none => ofNumber? cs
where
  ofNumber? (cs : List Char) : Option Threshold :=
    let digits := match cs with
      | '+' :: rest => rest
      | rest => rest
    let significant := digits.dropWhile (· == '0')
    if digits.isEmpty || !digits.all Char.isDigit then none
    else
      match significant with
      | [] => some none
      | [c] => (Level.all.find? fun level => level.rank = c.toNat - '0'.toNat).map some
      | _ => none

-- The threshold that a level of the command line or the configuration stands for. Unknown names
-- show nothing.
def Threshold.ofName (name : String) : Threshold :=
  let lower := String.ofList (lowered name.toList)
  if lower = "warning" then some .warn
  else if lower = "critical" then some .error
  else Level.all.find? fun level => lower = level.word

structure Rule where
  target : Option (List Char)
  threshold : Threshold
deriving DecidableEq, Repr

abbrev Filter := List Rule

def Filter.uniform (threshold : Threshold) : Filter :=
  [⟨none, threshold⟩]

def Rule.holds (rule : Rule) (target : List Char) : Bool :=
  match rule.target with
  | none => true
  | some known => known.isPrefixOf target

def Rule.width (rule : Rule) : Nat :=
  match rule.target with
  | none => 0
  | some target => (String.ofList target).utf8ByteSize + 1

def Filter.deciding (filter : Filter) (target : List Char) : Option Rule :=
  (filter.filter fun rule => rule.holds target).foldl
    (fun best rule =>
      match best with
      | some known => if known.width ≤ rule.width then some rule else best
      | none => some rule) none

def Filter.shows (filter : Filter) (level : Level) (target : String) : Bool :=
  match filter.deciding target.toList with
  | some rule => rule.threshold.shows level
  | none => false

inductive Directive
  | rule (rule : Rule)
  | span
deriving DecidableEq, Repr

namespace Directive

def threshold? (cs : List Char) : Option Threshold :=
  if cs.isEmpty then some (some .trace) else Threshold.ofWord? cs

def spanOf? (cs : List Char) : Option Directive := do
  match cs.dropWhile (· != ']') with
  | [_] => return .span
  | _ :: '=' :: level =>
    let _ ← threshold? level
    return .span
  | _ => none

def begins (c : Char) : Bool :=
  c == '-' || c == ':' || Text.isWordChar c

def ofText? (cs : List Char) : Option Directive :=
  match cs with
  | [] => none
  | '[' :: rest => spanOf? rest
  | c :: _ =>
    if !begins c then none
    else
      let target := cs.takeWhile fun c => c != '=' && c != '['
      match cs.drop target.length with
      | [] =>
        match Threshold.ofWord? target with
        | some threshold => some (.rule ⟨none, threshold⟩)
        | none => some (.rule ⟨some target, some .trace⟩)
      | '=' :: level => (threshold? level).map fun threshold => .rule ⟨some target, threshold⟩
      | _ :: rest => spanOf? rest

end Directive

-- The filter that a text of directives with commas between them stands for. Without a directive
-- only errors are shown.
def Filter.ofText? (text : String) : Option Filter := do
  let parts := (text.toList.splitOn ',').filter fun part => !part.isEmpty
  let directives ← parts.mapM Directive.ofText?
  if directives.isEmpty then return Filter.uniform (some .error)
  return directives.filterMap fun
    | .rule rule => some rule
    | .span => none

-- The filter of a run: what the environment asks for, if it can be understood, else the level of
-- the command line or the configuration, else warnings.
def Filter.choose (environment : Option String) (level : Option String) : Filter :=
  match environment.bind Filter.ofText? with
  | some filter => filter
  | none =>
    Filter.uniform (match level with
      | some name => Threshold.ofName name
      | none => some .warn)

end SourceDiagram.CommandLine
