import SourceDiagram.Model.Records
import SourceDiagram.Report
import SourceDiagram.Schema.Statement
import SourceDiagram.Text.Characters

set_option autoImplicit false

namespace SourceDiagram.Schema

open SourceDiagram.Model
open SourceDiagram.Text

def depthAfter (depth : Nat) (c : Char) : Nat :=
  if c = '(' then depth + 1 else if c = ')' then depth - 1 else depth

def clausesFrom (depth : Nat) : List Char → List (List Char)
  | [] => [[]]
  | c :: cs =>
    if c = ',' && depth = 0 then [] :: clausesFrom 0 cs
    else
      match clausesFrom (depthAfter depth c) cs with
      | clause :: later => (c :: clause) :: later
      | [] => [[c]]

def splitClauses (body : List Char) : List (List Char) :=
  clausesFrom 0 body

def upperAscii (c : Char) : List Char :=
  match c with
  | 'ı' => ['I']
  | 'ſ' => ['S']
  | 'ß' => ['S', 'S']
  | 'ﬀ' => ['F', 'F']
  | 'ﬁ' => ['F', 'I']
  | 'ﬂ' => ['F', 'L']
  | 'ﬃ' => ['F', 'F', 'I']
  | 'ﬄ' => ['F', 'F', 'L']
  | 'ﬅ' => ['S', 'T']
  | 'ﬆ' => ['S', 'T']
  | c => [c.toUpper]

def constraintWords : List String :=
  ["PRIMARY", "UNIQUE", "FOREIGN", "CONSTRAINT", "CHECK"]

def isConstraintWord (word : List Char) : Bool :=
  constraintWords.any fun constraint => word.flatMap upperAscii == constraint.toList

def clauseHead (clause : List Char) : List Char :=
  trimBoth (· == '"') (clause.takeWhile fun c => !isBlank c)

def clauseRest (clause : List Char) : List Char :=
  trim ((clause.dropWhile fun c => !isBlank c).drop 1)

def readColumn? (clause : List Char) : Option Column :=
  let line := trim clause
  if line.isEmpty || isConstraintWord (clauseHead line) then none
  else some ⟨String.ofList (clauseHead line), String.ofList (clauseRest line)⟩

def readColumns (body : List Char) : List Column :=
  (splitClauses body).filterMap readColumn?

def Statement.name (statement : Statement) : String :=
  Table.qualifiedName (statement.schema.map String.ofList) (String.ofList statement.table)

def readTable (statement : Statement) : Table :=
  (readColumns statement.body).foldl Table.upsertColumn ⟨statement.name, []⟩

def tablesOf (text : String) : List Table :=
  (statements text.toList).map readTable

def insertTable (tables : List Table) (fresh : Table) : List Table :=
  upsert Table.name (fun _ fresh => fresh) fresh tables

def tableEvent (table : Table) : Event :=
  .tableRead table.name table.columns.length

def interpret (tables : List Table) (text : String) : List Table × Bool × List Event :=
  let created := tablesOf text
  let known := created.foldl insertTable tables
  (known, !known.isEmpty, created.map tableEvent)

end SourceDiagram.Schema
