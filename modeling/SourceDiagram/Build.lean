import SourceDiagram.Diagram.Rendering
import SourceDiagram.ObjectModel.Session
import SourceDiagram.Relation
import SourceDiagram.Report
import SourceDiagram.Schema.Session

set_option autoImplicit false

namespace SourceDiagram

open SourceDiagram.Model

inductive Extraction
  | schema (tables : List Table)
  | objectModel (records : List ClassRecord)
deriving DecidableEq, Repr

namespace Extraction

def kind : Extraction → InputKind
  | schema _ => .schema
  | objectModel _ => .objectModel

def isEmpty : Extraction → Bool
  | schema tables => tables.isEmpty
  | objectModel records => records.isEmpty

def empty : InputKind → Extraction
  | .schema => .schema []
  | .objectModel => .objectModel []

-- The facts after one more source of their kind is read, whether any was found, and what
-- happened.
def interpret (facts : Extraction) (source : String) : Extraction × Bool × List Event :=
  match facts with
  | schema tables =>
    let (known, found, events) := Schema.interpret tables source
    (.schema known, found, events)
  | objectModel records =>
    let (known, found, events) := ObjectModel.interpret records source
    (.objectModel known, found, events)

end Extraction

structure Traced (α : Type) where
  result : α
  events : List Event

def extract (kind : InputKind) (source : String) : Traced (Except Fault Extraction) :=
  let (facts, found, events) := (Extraction.empty kind).interpret source
  { result := if kind = .schema && !found then .error .noTable else .ok facts
    events := events ++ [.extracted kind found source.utf8ByteSize] }

def renderTables (format : OutputFormat) (tables : List Table) : Traced String :=
  match format with
  | .plantUml => ⟨Diagram.schemaMarkup tables, [Diagram.schemaEvent tables]⟩
  | .json => ⟨(Diagram.schemaDocument tables).text .indented, []⟩

def renderClasses (format : OutputFormat) (records : List ClassRecord) (edges : List Edge) :
    Traced String :=
  match format with
  | .plantUml =>
    ⟨Diagram.objectModelMarkup records edges, [Diagram.objectModelEvent records edges]⟩
  | .json => ⟨(Diagram.objectModelDocument records edges).text .indented, []⟩

def render (format : OutputFormat) (facts : Extraction) : Traced String :=
  match facts with
  | .schema tables => renderTables format tables
  | .objectModel records =>
    let drawn := renderClasses format records (relations records)
    ⟨drawn.result, relationEvents records ++ drawn.events⟩

def build (kind : InputKind) (format : OutputFormat) (source : String) :
    Traced (Except Fault String) :=
  let extracted := extract kind source
  match extracted.result with
  | .error fault => ⟨.error fault, extracted.events⟩
  | .ok facts =>
    let drawn := render format facts
    ⟨.ok drawn.result,
      extracted.events ++ drawn.events ++ [.built format drawn.result.utf8ByteSize]⟩

end SourceDiagram
