import SourceDiagram.Proofs.ObjectModel.Bases
import SourceDiagram.Proofs.ObjectModel.LevelOrder
import SourceDiagram.Proofs.ObjectModel.Signatures

set_option autoImplicit false

namespace SourceDiagram.ObjectModel

open SourceDiagram.Model
open SourceDiagram.Syntax

inductive Replaces (old new : SyntaxTree) : SyntaxTree → SyntaxTree → Prop where
  | child {kind : Kind} {text spanned : String} {role : Role} {front back : List (Role × SyntaxTree)} :
      Replaces old new (.node kind text (front ++ (role, old) :: back))
        (.node kind spanned (front ++ (role, new) :: back))

-- The least congruence that does not tell the forms apart. Names, labels, operators and literals are
-- no places for another form, and the arguments of a generic type stay in a node of their own.
inductive Equivalent : SyntaxTree → SyntaxTree → Prop where
  | refl (tree : SyntaxTree) : Equivalent tree tree
  | symm {tree other : SyntaxTree} : Equivalent tree other → Equivalent other tree
  | trans {tree other third : SyntaxTree} : Equivalent tree other → Equivalent other third →
      Equivalent tree third
  | enclosed {tree inner : SyntaxTree} : isEnclosing tree.kind = true →
      tree.parts.head? = some inner → Equivalent tree inner
  | member {tree other value label : SyntaxTree} :
      tree.kind = .memberType → tree.parts = [value, label] →
      other.kind = .attribute → other.field? .object = some value →
      other.field? .attribute = some label → Equivalent tree other
  | generic {tree other value arguments : SyntaxTree} :
      tree.kind = .genericType → tree.parts = [value, arguments] →
      other.kind = .subscript → other.field? .value = some value →
      other.fields .subscript = arguments.parts → Equivalent tree other
  | union {tree other left right operator : SyntaxTree} :
      tree.kind = .unionType → tree.parts = [left, right] →
      other.kind = .binaryOperator → other.field? .left = some left →
      other.field? .operator = some operator → operator.text = "|" →
      other.field? .right = some right → Equivalent tree other
  | items {tree other : SyntaxTree} :
      tree.kind = .tupleDisplay → other.kind = .expressionList → other.parts = tree.parts →
      Equivalent tree other
  | inside {old new tree other : SyntaxTree} : Equivalent old new → Replaces old new tree other →
      textsOf other = textsOf tree →
      (tree.kind = .genericType → other.parts.tail = tree.parts.tail) → Equivalent tree other
  | argument {old new arguments others tree other : SyntaxTree} : Equivalent old new →
      Replaces old new arguments others → arguments.kind = .typeParameter →
      Replaces arguments others tree other → tree.kind = .genericType →
      textsOf other = textsOf tree → Equivalent tree other

section

variable {old new tree other : SyntaxTree}

theorem Replaces.kind (replaces : Replaces old new tree other) : other.kind = tree.kind := by
  cases replaces
  rfl

theorem Replaces.parts_map {α : Type} {f : SyntaxTree → α} (replaces : Replaces old new tree other)
    (part : new.isPart = old.isPart) (same : f new = f old) :
    other.parts.map f = tree.parts.map f := by
  cases replaces
  simp only [SyntaxTree.parts, SyntaxTree.children_node, List.map_append, List.map_cons,
    List.filter_append, List.filter_cons, part]
  split
  · rw [List.map_cons, List.map_cons, same]
  · rfl

theorem Replaces.fields_map {α : Type} {f : SyntaxTree → α} (replaces : Replaces old new tree other)
    (same : f new = f old) (role : Role) :
    (other.fields role).map f = (tree.fields role).map f := by
  cases replaces
  simp only [SyntaxTree.fields, SyntaxTree.children_node, List.filter_append, List.filter_cons,
    List.map_append]
  split
  · rw [List.map_cons, List.map_cons, List.map_cons, List.map_cons, same]
  · rfl

theorem part_of_parts (member : new ∈ tree.parts) : new.isPart = true :=
  (List.mem_filter.mp member).2

theorem kind_is_part {kind : Kind} (same : tree.kind = kind)
    (part : (SyntaxTree.leaf kind "").isPart = true) : tree.isPart = true := by
  rw [SyntaxTree.isPart, same]
  exact part

theorem enclosed_alike {inner : SyntaxTree} (enclosing : isEnclosing tree.kind = true)
    (first : tree.parts.head? = some inner) :
    Expr.ofTree inner = Expr.ofTree tree ∧ inner.isPart = tree.isPart := by
  have either := enclosing
  rw [isEnclosing, Bool.or_eq_true, beq_iff_eq, beq_iff_eq] at either
  have holder : holder? tree = some inner := by
    rcases either with kind | kind <;> rw [holder?, kind] <;> exact first
  have part : tree.isPart = true := by
    rcases either with kind | kind <;> exact kind_is_part kind rfl
  exact ⟨(enclosed_told holder enclosing).symm,
    (part_of_parts (List.mem_of_head? first)).trans part.symm⟩

theorem member_alike {value label : SyntaxTree} (kind : tree.kind = .memberType)
    (parts : tree.parts = [value, label]) (dotted : other.kind = .attribute)
    (object : other.field? .object = some value) (labelled : other.field? .attribute = some label) :
    Expr.ofTree other = Expr.ofTree tree := by
  rw [field_of_fields] at object
  obtain ⟨values, object⟩ := List.head?_eq_some_iff.mp object
  have items : itemsOf tree = [Expr.ofTree value, Expr.ofTree label] := by rw [itemsOf, parts]; rfl
  rw [of_tree_formed, of_tree_formed tree, kind, dotted, items]
  simp [Expr.formed, textsOf, kind, parts, dotted, object, labelled]

theorem generic_alike {value arguments : SyntaxTree} (kind : tree.kind = .genericType)
    (parts : tree.parts = [value, arguments]) (indexed : other.kind = .subscript)
    (applied : other.field? .value = some value)
    (given : other.fields .subscript = arguments.parts) :
    Expr.ofTree other = Expr.ofTree tree := by
  rw [field_of_fields] at applied
  obtain ⟨values, applied⟩ := List.head?_eq_some_iff.mp applied
  have items : itemsOf tree = [Expr.ofTree value, Expr.ofTree arguments] := by
    rw [itemsOf, parts]
    rfl
  rw [of_tree_formed, of_tree_formed tree, kind, indexed, items]
  simp [Expr.formed, parts, applied, given, itemsOf]

theorem union_alike {left right operator : SyntaxTree} (kind : tree.kind = .unionType)
    (parts : tree.parts = [left, right]) (operated : other.kind = .binaryOperator)
    (first : other.field? .left = some left) (bar : other.field? .operator = some operator)
    (same : operator.text = "|") (second : other.field? .right = some right) :
    Expr.ofTree other = Expr.ofTree tree := by
  rw [field_of_fields] at first second
  obtain ⟨lefts, first⟩ := List.head?_eq_some_iff.mp first
  obtain ⟨rights, second⟩ := List.head?_eq_some_iff.mp second
  have items : itemsOf tree = [Expr.ofTree left, Expr.ofTree right] := by rw [itemsOf, parts]; rfl
  rw [of_tree_formed, of_tree_formed tree, kind, operated, items]
  simp [Expr.formed, textsOf, first, bar, same, second]

theorem items_alike (kind : tree.kind = .tupleDisplay) (listed : other.kind = .expressionList)
    (same : other.parts = tree.parts) : Expr.ofTree other = Expr.ofTree tree := by
  rw [of_tree_formed, of_tree_formed tree, kind, listed, itemsOf, same]
  rfl

theorem type_parameter_told {arguments : SyntaxTree} (kind : arguments.kind = .typeParameter) :
    Expr.ofTree arguments = .other Kind.typeParameter.tag := by
  rw [of_tree_formed, kind]
  rfl

theorem replaced_alike (replaces : Replaces old new tree other) (texts : textsOf other = textsOf tree)
    (expr : Expr.ofTree new = Expr.ofTree old) (part : new.isPart = old.isPart)
    (arguments : tree.kind = .genericType →
      other.parts.tail.map itemsOf = tree.parts.tail.map itemsOf) :
    Expr.ofTree other = Expr.ofTree tree :=
  MadeAlike.expr ⟨replaces.kind, texts, replaces.parts_map part expr,
    fun role _ => replaces.fields_map expr role, arguments⟩

theorem Equivalent.told (same : Equivalent tree other) :
    Expr.ofTree other = Expr.ofTree tree ∧ other.isPart = tree.isPart := by
  induction same with
  | refl tree => exact ⟨rfl, rfl⟩
  | symm _ ih => exact ⟨ih.1.symm, ih.2.symm⟩
  | trans _ _ first second => exact ⟨second.1.trans first.1, second.2.trans first.2⟩
  | enclosed enclosing first => exact enclosed_alike enclosing first
  | member kind parts dotted object label =>
    exact ⟨member_alike kind parts dotted object label,
      (kind_is_part dotted rfl).trans (kind_is_part kind rfl).symm⟩
  | generic kind parts indexed value given =>
    exact ⟨generic_alike kind parts indexed value given,
      (kind_is_part indexed rfl).trans (kind_is_part kind rfl).symm⟩
  | union kind parts operated left bar isBar right =>
    exact ⟨union_alike kind parts operated left bar isBar right,
      (kind_is_part operated rfl).trans (kind_is_part kind rfl).symm⟩
  | items kind listed same =>
    exact ⟨items_alike kind listed same,
      (kind_is_part listed rfl).trans (kind_is_part kind rfl).symm⟩
  | inside _ replaces texts arguments ih =>
    refine ⟨replaced_alike replaces texts ih.1 ih.2 fun generic => ?_, is_part_congr replaces.kind⟩
    rw [arguments generic]
  | argument _ inner kind outer generic texts ih =>
    -- The node of the arguments is told by its kind, and its items are told by what they were.
    have told := (type_parameter_told (inner.kind.trans kind)).trans (type_parameter_told kind).symm
    have items := outer.parts_map (f := itemsOf) (is_part_congr inner.kind)
      (inner.parts_map ih.2 ih.1)
    refine ⟨replaced_alike outer texts told (is_part_congr inner.kind) fun _ => ?_,
      is_part_congr outer.kind⟩
    rw [List.map_tail, List.map_tail, items]

end

def typeRoles : List Role := [.declared, .returnType]

-- A declaration with equivalent forms of its types, and the same but for them.
structure Retyped (tree other : SyntaxTree) : Prop where
  kind : other.kind = tree.kind
  texts : textsOf other = textsOf tree
  target : other.parts.head? = tree.parts.head?
  fields : ∀ role, role ∉ typeRoles → other.field? role = tree.field? role
  types : ∀ role ∈ typeRoles, Option.Rel Equivalent (tree.field? role) (other.field? role)

structure RetypedFunction (function other : SyntaxTree) : Prop where
  name : other.field? .name = function.field? .name
  entries : List.Forall₂ Retyped (entriesOf function) (entriesOf other)
  result : Option.Rel Equivalent (function.field? .returnType) (other.field? .returnType)

theorem types_unparsed {type other : Option SyntaxTree} (same : Option.Rel Equivalent type other) :
    unparse other = unparse type :=
  unparse_congr (map_related same fun _ _ same => same.told.1)

theorem base_named {tree other : SyntaxTree} (same : Equivalent tree other) :
    baseName? other = baseName? tree := by
  rw [base_name_of, base_name_of tree, same.told.1]

namespace Retyped

variable {tree other : SyntaxTree}

theorem unparsed (retyped : Retyped tree other) :
    unparse (other.field? .declared) = unparse (tree.field? .declared) :=
  types_unparsed (retyped.types .declared (by decide))

theorem linked (retyped : Retyped tree other) {α : Type} {f : SyntaxTree → Option α}
    (same : f other = f tree) : (chain other).filterMap f = (chain tree).filterMap f := by
  have right := retyped.fields .right (by decide)
  rw [chain_of, chain_of tree, right, List.filterMap_cons, List.filterMap_cons, same]

theorem class_sights (retyped : Retyped tree other) : classSights other = classSights tree := by
  have target : plainTarget? other = plainTarget? tree := by
    rw [plainTarget?, plainTarget?, retyped.fields .left (by decide)]
  have types := retyped.types .declared (by decide)
  rw [classSights, classSights, target]
  generalize tree.field? .declared = type at types ⊢
  generalize other.field? .declared = changed at types ⊢
  cases types with
  | none => exact retyped.linked (by rw [target])
  | some same => simp only [types_unparsed (.some same)]

theorem method_sights (retyped : Retyped tree other) : methodSights other = methodSights tree := by
  have target : selfTarget? other = selfTarget? tree := by
    rw [selfTarget?, selfTarget?, retyped.fields .left (by decide)]
  rw [methodSights, methodSights, retyped.unparsed]
  exact retyped.linked (by rw [target])

theorem parameter (retyped : Retyped tree other) : parameter? other = parameter? tree :=
  parameter_congr retyped.kind retyped.texts (fun _ => by rw [retyped.target])
    (by rw [retyped.fields .name (by decide)]) retyped.unparsed

end Retyped

theorem bases_alike {definition other : SyntaxTree}
    (same : List.Forall₂ Equivalent (baseList definition) (baseList other)) :
    basesOf other = basesOf definition := by
  rw [bases_named, bases_named definition]
  exact filter_map_related same fun _ _ => base_named

theorem methods_alike {function other : SyntaxTree} (retyped : RetypedFunction function other)
    (decorators : List SyntaxTree) : methodOf other decorators = methodOf function decorators := by
  rw [method_of_entries, method_of_entries function, retyped.name, types_unparsed retyped.result,
    filter_map_related retyped.entries fun _ _ entry => entry.parameter]

-- Equivalent forms give the same expression and so the same text, and they are recorded as the same
-- base or not at all. So a class has the same bases where these are equivalent, and attributes,
-- parameters and results are declared with the same types where their types are.
theorem equivalent_forms_told_alike :
    (∀ tree other, Equivalent tree other →
      Expr.ofTree other = Expr.ofTree tree ∧ unparse (some other) = unparse (some tree) ∧
        baseName? other = baseName? tree) ∧
    (∀ definition other, List.Forall₂ Equivalent (baseList definition) (baseList other) →
      basesOf other = basesOf definition) ∧
    (∀ tree other, Retyped tree other →
      classSights other = classSights tree ∧ methodSights other = methodSights tree ∧
        parameter? other = parameter? tree) ∧
    (∀ function other decorators, RetypedFunction function other →
      methodOf other decorators = methodOf function decorators) := by
  refine ⟨?_, fun _ _ => bases_alike, ?_, fun _ _ decorators same => methods_alike same decorators⟩
  · intro tree other same
    exact ⟨same.told.1, types_unparsed (.some same), base_named same⟩
  · intro tree other retyped
    exact ⟨retyped.class_sights, retyped.method_sights, retyped.parameter⟩

def typed (text : String) (inner : SyntaxTree) : SyntaxTree :=
  .phrase .typeNode text [inner]

def memberOf (owner : SyntaxTree) : SyntaxTree :=
  .node .attribute "a.B" [(.object, owner), (.attribute, .leaf .identifier "B")]

def memberOfType : SyntaxTree :=
  .phrase .memberType "a.B" [typed "a" (.leaf .identifier "a"), .leaf .identifier "B"]

def genericList (argument : SyntaxTree) : SyntaxTree :=
  .phrase .genericType "List[a.B]"
    [.leaf .identifier "List", .phrase .typeParameter "" [argument]]

def indexedList : SyntaxTree :=
  .node .subscript "List[a.B]"
    [(.value, .leaf .identifier "List"), (.subscript, memberOf (.leaf .identifier "a"))]

theorem member_of_type_dotted : Equivalent memberOfType (memberOf (.leaf .identifier "a")) :=
  (show Equivalent memberOfType (memberOf (typed "a" (.leaf .identifier "a"))) from
    .member rfl rfl rfl rfl rfl).trans
    (.inside (.enclosed rfl rfl) (@Replaces.child _ _ .attribute "a.B" "a.B" .object [] _) rfl
      fun _ => rfl)

theorem forms_of_indexed_list :
    Equivalent (typed "List[a.B]" (genericList (typed "a.B" memberOfType))) indexedList ∧
    unparse (some indexedList) =
      unparse (some (typed "List[a.B]" (genericList (typed "a.B" memberOfType)))) ∧
    baseName? indexedList = some "List[a.B]" := by
  have argument : Equivalent (typed "a.B" memberOfType) (memberOf (.leaf .identifier "a")) :=
    .trans (.enclosed rfl rfl) member_of_type_dotted
  have same : Equivalent (typed "List[a.B]" (genericList (typed "a.B" memberOfType))) indexedList :=
    .trans (.enclosed rfl rfl)
      (.trans (.argument argument (@Replaces.child _ _ .typeParameter "" "" .plain [] []) rfl
        (@Replaces.child _ _ .genericType "List[a.B]" "List[a.B]" .plain
          [(.plain, .leaf .identifier "List")] []) rfl rfl)
        (.generic rfl rfl rfl rfl rfl))
  obtain ⟨-, unparsed, -⟩ := equivalent_forms_told_alike.1 _ _ same
  exact ⟨same, unparsed, by decide⟩

end SourceDiagram.ObjectModel
