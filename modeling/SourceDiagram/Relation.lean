import SourceDiagram.Model.Records
import SourceDiagram.Report
import SourceDiagram.Text.Characters

set_option autoImplicit false

namespace SourceDiagram

open SourceDiagram.Model
open SourceDiagram.Text

def wrapperNames : List String :=
  ["Optional", "List", "Dict", "Set", "Tuple"]

def afterStart? (start cs : List Char) : Option (List Char) :=
  if start.isPrefixOf cs then some (cs.drop start.length) else none

def withoutWrapper (cs : List Char) : List Char :=
  (wrapperNames.findSome? fun wrapper => afterStart? (wrapper.toList ++ ['[']) cs).getD cs

-- The characters of the one name that a type is matched by: the first argument of a wrapper or the
-- type itself, without brackets behind it, white space and quotes.
def bareChars (cs : List Char) : List Char :=
  let first := (withoutWrapper cs).takeWhile (· != ',')
  trimBoth (· == '\'') (trimBoth (· == '"') (trim (trimEnd (· == ']') first)))

def bareName (declaredType : String) : String :=
  String.ofList (bareChars declaredType.toList)

def commonBases : List String :=
  ["", "object", "Any"]

def inheritanceOf (record : ClassRecord) : List Edge :=
  (record.bases.filter fun base => base ∉ commonBases).map fun base =>
    ⟨.inheritance, record.name, base⟩

def compositionOf (known : List String) (record : ClassRecord) : List Edge :=
  record.attributes.filterMap fun member =>
    let part := bareName member.declaredType
    if part ∈ known ∧ part ≠ record.name then some ⟨.composition, record.name, part⟩ else none

def inheritance (records : List ClassRecord) : List Edge :=
  records.flatMap inheritanceOf

def composition (records : List ClassRecord) : List Edge :=
  records.flatMap (compositionOf (records.map ClassRecord.name))

def relations (records : List ClassRecord) : List Edge :=
  inheritance records ++ composition records

def relationEvents (records : List ClassRecord) : List Event :=
  [.inheritanceResolved (inheritance records).length,
    .compositionResolved (composition records).length]

end SourceDiagram
