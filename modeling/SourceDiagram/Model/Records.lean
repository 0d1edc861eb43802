set_option autoImplicit false

namespace SourceDiagram.Model

def upsert {α κ : Type} [DecidableEq κ] (key : α → κ) (merge : α → α → α) (fresh : α) :
    List α → List α
  | [] => [fresh]
  | old :: rest =>
    if key old = key fresh then merge old fresh :: rest
    else old :: upsert key merge fresh rest

theorem upsert_keys {α κ : Type} [DecidableEq κ] (key : α → κ) (merge : α → α → α) (fresh : α)
    (kept : ∀ old, key (merge old fresh) = key old) (entries : List α) :
    (upsert key merge fresh entries).map key =
      if key fresh ∈ entries.map key then entries.map key
      else entries.map key ++ [key fresh] := by
  induction entries with
  | nil => simp [upsert]
  | cons old rest ih =>
    by_cases same : key old = key fresh
    · simp [upsert, same, kept]
    · have different : ¬ key fresh = key old := fun equal => same equal.symm
      simp only [upsert, if_neg same, List.map_cons, ih, List.mem_cons, different, false_or]
      split <;> simp

inductive Visibility
  | pub
  | prot
  | priv
deriving DecidableEq, Repr

namespace Visibility

-- A name is private with two low lines before it but not behind it, protected with one.
def ofName (name : String) : Visibility :=
  let cs := name.toList
  if ['_', '_'].isPrefixOf cs && !(['_', '_'].isSuffixOf cs) then .priv
  else if ['_'].isPrefixOf cs then .prot
  else .pub

def marker : Visibility → String
  | pub => "+"
  | prot => "#"
  | priv => "-"

def word : Visibility → String
  | pub => "public"
  | prot => "protected"
  | priv => "private"

def all : List Visibility := [pub, prot, priv]

theorem word_injective (a b : Visibility) (same : a.word = b.word) : a = b := by
  cases a <;> cases b <;> first | rfl | exact absurd same (by decide)

end Visibility

structure Column where
  name : String
  spec : String
deriving DecidableEq, Repr

structure Table where
  name : String
  columns : List Column
deriving DecidableEq, Repr

namespace Table

def qualifiedName (schema : Option String) (table : String) : String :=
  match schema with
  | some schema => if schema.isEmpty then table else schema ++ "." ++ table
  | none => table

def upsertColumn (table : Table) (column : Column) : Table :=
  { table with
    columns := upsert Column.name (fun old fresh => { old with spec := fresh.spec }) column
      table.columns }

def column? (table : Table) (name : String) : Option Column :=
  table.columns.find? fun column => column.name = name

end Table

structure Attribute where
  name : String
  declaredType : String
deriving DecidableEq, Repr

def Attribute.visibility (member : Attribute) : Visibility :=
  .ofName member.name

structure Parameter where
  name : String
  declaredType : String
deriving DecidableEq, Repr

def Parameter.text (parameter : Parameter) : String :=
  if parameter.declaredType.isEmpty then parameter.name
  else parameter.name ++ ": " ++ parameter.declaredType

inductive MethodKind
  | instanceMethod
  | classMethod
  | staticMethod
deriving DecidableEq, Repr

namespace MethodKind

def word : MethodKind → String
  | instanceMethod => "instance"
  | classMethod => "classmethod"
  | staticMethod => "staticmethod"

def all : List MethodKind := [instanceMethod, classMethod, staticMethod]

def receiver? : MethodKind → Option String
  | instanceMethod => some "self"
  | classMethod => some "cls"
  | staticMethod => none

def stereotype? : MethodKind → Option String
  | instanceMethod => none
  | classMethod => some "«class»"
  | staticMethod => some "«static»"

end MethodKind

-- A method, without its receiver; the return type is empty where none is declared.
structure Method where
  name : String
  parameters : List Parameter
  returnType : String
  kind : MethodKind
deriving DecidableEq, Repr

namespace Method

def visibility (method : Method) : Visibility :=
  .ofName method.name

def signature (method : Method) : String :=
  let parameters := ", ".intercalate (method.parameters.map Parameter.text)
  let call := method.name ++ "(" ++ parameters ++ ")"
  if method.returnType.isEmpty then call else call ++ ": " ++ method.returnType

end Method

structure ClassRecord where
  name : String
  bases : List String
  attributes : List Attribute
  methods : List Method
deriving DecidableEq, Repr

namespace ClassRecord

def ofName (name : String) : ClassRecord :=
  ⟨name, [], [], []⟩

-- Record a sight of an attribute. A declared type replaces the known one; no type changes none.
def addAttribute (record : ClassRecord) (sighted : Attribute) : ClassRecord :=
  { record with
    attributes := upsert Attribute.name
      (fun old fresh =>
        if fresh.declaredType.isEmpty then old else { old with declaredType := fresh.declaredType })
      sighted record.attributes }

def attribute? (record : ClassRecord) (name : String) : Option Attribute :=
  record.attributes.find? fun member => member.name = name

def method? (record : ClassRecord) (name : String) : Option Method :=
  record.methods.find? fun method => method.name = name

end ClassRecord

inductive EdgeKind
  | inheritance
  | composition
deriving DecidableEq, Repr

namespace EdgeKind

def word : EdgeKind → String
  | inheritance => "inheritance"
  | composition => "composition"

def all : List EdgeKind := [inheritance, composition]

end EdgeKind

-- A relation: from the derived class to its base, or from the owner to the part.
structure Edge where
  kind : EdgeKind
  source : String
  target : String
deriving DecidableEq, Repr

end SourceDiagram.Model
