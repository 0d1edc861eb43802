import SourceDiagram.Main
import SourceDiagram.CommandLine.World
import SourceDiagram.ObjectModel.Fragment
import SourceDiagram.Proofs.Text.Blank
import SourceDiagram.Proofs.Model.History
import SourceDiagram.Proofs.Model.Sights
import SourceDiagram.Proofs.Model.Recording
import SourceDiagram.Proofs.Related
import SourceDiagram.Proofs.Relation
import SourceDiagram.Proofs.Json.Grammar
import SourceDiagram.Proofs.Json.Reading
import SourceDiagram.Proofs.Json.Printing
import SourceDiagram.Proofs.Model.Coding
import SourceDiagram.Proofs.Json.Forms
import SourceDiagram.Proofs.Diagram
import SourceDiagram.Proofs.Model.Forms
import SourceDiagram.Proofs.Schema.Grammar
import SourceDiagram.Proofs.Schema.Reading
import SourceDiagram.Proofs.Schema.Segments
import SourceDiagram.Proofs.Schema.Scan
import SourceDiagram.Proofs.Schema.Clauses
import SourceDiagram.Proofs.Schema.Constraints
import SourceDiagram.Proofs.Schema.Splitting
import SourceDiagram.Proofs.Schema.Session
import SourceDiagram.Proofs.Schema.Printed
import SourceDiagram.Proofs.Schema.Provenance
import SourceDiagram.Proofs.Schema.Joining
import SourceDiagram.Syntax.Tree
import SourceDiagram.Proofs.Syntax.Definitions
import SourceDiagram.Proofs.ObjectModel.Session
import SourceDiagram.Proofs.Syntax.Lexing
import SourceDiagram.Proofs.Syntax.Run
import SourceDiagram.Proofs.Syntax.Halting
import SourceDiagram.Proofs.Syntax.Literals
import SourceDiagram.Proofs.Syntax.Blocks
import SourceDiagram.Proofs.ObjectModel.Calm
import SourceDiagram.Proofs.ObjectModel.Lowering
import SourceDiagram.Proofs.ObjectModel.TypeText
import SourceDiagram.Proofs.ObjectModel.Spelling
import SourceDiagram.Proofs.ObjectModel.Bases
import SourceDiagram.Proofs.ObjectModel.Expressions
import SourceDiagram.Proofs.ObjectModel.Literals
import SourceDiagram.Proofs.ObjectModel.Operators
import SourceDiagram.Proofs.ObjectModel.Types
import SourceDiagram.Proofs.ObjectModel.UnreadTypes
import SourceDiagram.Proofs.ObjectModel.ClassText
import SourceDiagram.Proofs.ObjectModel.Parameters
import SourceDiagram.Proofs.ObjectModel.Assignments
import SourceDiagram.Proofs.ObjectModel.Methods
import SourceDiagram.Proofs.ObjectModel.Functions
import SourceDiagram.Proofs.ObjectModel.Classes
import SourceDiagram.Proofs.ObjectModel.Modules
import SourceDiagram.Proofs.ObjectModel.Fragment
import SourceDiagram.Proofs.ObjectModel.Extraction
import SourceDiagram.Proofs.ObjectModel.StatementOrder
import SourceDiagram.Proofs.ObjectModel.LevelOrder
import SourceDiagram.Proofs.ObjectModel.Signatures
import SourceDiagram.Proofs.ObjectModel.Equivalence
import SourceDiagram.Proofs.ObjectModel.Refusal
import SourceDiagram.Proofs.ObjectModel.Extras
import SourceDiagram.Proofs.ObjectModel.BareName
import SourceDiagram.Proofs.Diagram.Markup
import SourceDiagram.Proofs.Diagram.Agreement
import SourceDiagram.Proofs.Build
import SourceDiagram.Proofs.Trace
import SourceDiagram.Proofs.Diagram.Layout
import SourceDiagram.Proofs.Diagram.Entities
import SourceDiagram.Proofs.Diagram.Edges
import SourceDiagram.Proofs.Files
import SourceDiagram.Proofs.CommandLine.Steps
import SourceDiagram.Proofs.Substitution
import SourceDiagram.Proofs.CommandLine.Run
import SourceDiagram.Proofs.CommandLine.Definitions
import SourceDiagram.Proofs.CommandLine.Outcome
