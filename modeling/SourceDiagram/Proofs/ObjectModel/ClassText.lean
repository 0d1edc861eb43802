import SourceDiagram.Proofs.Model.Sights
import SourceDiagram.Proofs.ObjectModel.TypeText
import SourceDiagram.Proofs.Syntax.Blocks

set_option autoImplicit false

namespace SourceDiagram.ObjectModel

open SourceDiagram.Model
open SourceDiagram.Syntax

abbrev Name := { letters : List Char // IsName letters }

abbrev TypeText := { text : List Char // Written .whole text }

abbrev BaseText := { text : List Char // Written .reference text }

def declaredType (type : Option TypeText) : String :=
  String.ofList (type.elim [] Subtype.val)

def typeSuffix (type : Option TypeText) : List Char :=
  type.elim [] fun type => ':' :: ' ' :: type.val

def line (width : Nat) (text : List Char) : List Char :=
  indent width ++ text

def passWord : List Char := ['p', 'a', 's', 's']

inductive Stars
  | none | one | two

def Stars.text : Stars → List Char
  | none => []
  | one => ['*']
  | two => ['*', '*']

structure ParameterText where
  stars : Stars
  name : Name
  declared : Option TypeText

namespace ParameterText

def text (entry : ParameterText) : List Char :=
  entry.stars.text ++ (entry.name.val ++ typeSuffix entry.declared)

def parameter (entry : ParameterText) : Parameter :=
  ⟨String.ofList (entry.stars.text ++ entry.name.val), declaredType entry.declared⟩

end ParameterText

theorem is_name_self : IsName ['s', 'e', 'l', 'f'] :=
  by decide

theorem is_name_cls : IsName ['c', 'l', 's'] :=
  by decide

def receiver : MethodKind → List ParameterText
  | .instanceMethod => [⟨.none, ⟨_, is_name_self⟩, none⟩]
  | .classMethod => [⟨.none, ⟨_, is_name_cls⟩, none⟩]
  | .staticMethod => []

structure AttributeText where
  name : Name
  declared : Option TypeText
  -- Whether a value is given; one always is where no type is declared.
  valued : Bool

namespace AttributeText

def noneValue : List Char := [' ', '=', ' ', 'N', 'o', 'n', 'e']

def value (member : AttributeText) : List Char :=
  if member.valued || member.declared.isNone then noneValue else []

def text (member : AttributeText) : List Char :=
  member.name.val ++ (typeSuffix member.declared ++ member.value)

def sight (member : AttributeText) : Attribute :=
  ⟨String.ofList member.name.val, declaredType member.declared⟩

end AttributeText

structure MethodText where
  kind : MethodKind
  name : Name
  parameters : List ParameterText
  result : Option TypeText
  attributes : List AttributeText

namespace MethodText

def decorator? : MethodKind → Option (List Char)
  | .instanceMethod => none
  | .classMethod => some ['c', 'l', 'a', 's', 's', 'm', 'e', 't', 'h', 'o', 'd']
  | .staticMethod => some ['s', 't', 'a', 't', 'i', 'c', 'm', 'e', 't', 'h', 'o', 'd']

def decoratorLine (kind : MethodKind) : List Char :=
  (decorator? kind).elim [] fun word => line 4 ('@' :: word)

def resultText (type : Option TypeText) : List Char :=
  type.elim [] fun type => ' ' :: '-' :: '>' :: ' ' :: type.val

def entries (method : MethodText) : List ParameterText :=
  receiver method.kind ++ method.parameters

def signature (method : MethodText) : List Char :=
  method.name.val ++ '(' :: (listed (method.entries.map ParameterText.text) ++
    ')' :: (resultText method.result ++ [':']))

def selfLine (member : AttributeText) : List Char :=
  line 8 (['s', 'e', 'l', 'f', '.'] ++ member.text)

def body (method : MethodText) : List Char :=
  if method.attributes.isEmpty then line 8 passWord else method.attributes.flatMap selfLine

def text (method : MethodText) : List Char :=
  decoratorLine method.kind ++ (line 4 (['d', 'e', 'f', ' '] ++ method.signature) ++ method.body)

def method (method : MethodText) : Method where
  name := String.ofList method.name.val
  parameters := method.parameters.map ParameterText.parameter
  returnType := declaredType method.result
  kind := method.kind

end MethodText

structure ClassText where
  name : Name
  -- The bases in parentheses, if there are any parentheses.
  bases : Option (List BaseText)
  attributes : List AttributeText
  methods : List MethodText

namespace ClassText

def basesText (bases : Option (List BaseText)) : List Char :=
  bases.elim [] fun bases => '(' :: (listed (bases.map Subtype.val) ++ [')'])

def head (declared : ClassText) : List Char :=
  declared.name.val ++ (basesText declared.bases ++ [':'])

def attributeLine (member : AttributeText) : List Char :=
  line 4 member.text

def body (declared : ClassText) : List Char :=
  if declared.attributes.isEmpty && declared.methods.isEmpty then line 4 passWord
  else declared.attributes.flatMap attributeLine ++ declared.methods.flatMap MethodText.text

def text (declared : ClassText) : List Char :=
  ['c', 'l', 'a', 's', 's', ' '] ++ (declared.head ++ declared.body)

def sights (declared : ClassText) : List Attribute :=
  declared.attributes.map AttributeText.sight ++
    declared.methods.flatMap fun method => method.attributes.map AttributeText.sight

def record (declared : ClassText) : ClassRecord where
  name := String.ofList declared.name.val
  bases := (declared.bases.getD []).map fun base => String.ofList base.val
  attributes := settled declared.sights
  methods := declared.methods.map MethodText.method

end ClassText

def separator (blanks : Nat) : List Char :=
  List.replicate (blanks + 1) '\n'

def printed (blanks : Nat) (classes : List ClassText) : List Char :=
  classes.flatMap fun declared => declared.text ++ separator blanks

end SourceDiagram.ObjectModel
