import Mathlib.Data.List.Infix
import SourceDiagram.ObjectModel.Description
import SourceDiagram.Proofs.Model.Sights
import SourceDiagram.Proofs.Syntax.Definitions

set_option autoImplicit false

namespace SourceDiagram.ObjectModel

open SourceDiagram.Model
open SourceDiagram.Syntax

def bodyOf (definition : SyntaxTree) : List SyntaxTree :=
  match definition.field? .body with
  | some body => body.parts
  | none => []

def expressionsOf (body : List SyntaxTree) : List SyntaxTree :=
  body.filter fun statement => statement.kind = .expressionStatement

def methodsOf (body : List SyntaxTree) : List SyntaxTree :=
  body.filter fun statement => (definition? .functionDefinition statement).isSome

theorem body_sights_of_expressions (body : List SyntaxTree) :
    bodySights (expressionsOf body) = bodySights body := by
  rw [bodySights, expressionsOf, List.filter_filter]
  simp only [Bool.and_self]
  rfl

theorem functions_of_methods (body : List SyntaxTree) :
    functionsOf (methodsOf body) = functionsOf body := by
  rw [functionsOf, methodsOf, List.filterMap_filter]
  refine List.filterMap_congr fun statement _ => ?_
  cases definition? .functionDefinition statement <;> simp

theorem sights_split (body : List SyntaxTree) :
    sightsOf body = bodySights (expressionsOf body) ++
      (functionsOf (methodsOf body)).flatMap fun (function, _) => selfSights function := by
  rw [body_sights_of_expressions, functions_of_methods]
  rfl

theorem sights_reordered {body other : List SyntaxTree}
    (expressions : expressionsOf other = expressionsOf body)
    (methods : (methodsOf other).Perm (methodsOf body)) :
    (sightsOf other).Perm (sightsOf body) := by
  rw [sights_split, sights_split body, expressions]
  exact ((methods.filterMap _).flatMap_right _).append_left _

theorem attributes_settled {definition : SyntaxTree} (complete : Named definition) :
    ∃ record, describe? definition = some record ∧
      record.attributes = settled (sightsOf (bodyOf definition)) := by
  obtain ⟨name, nameFound⟩ := Option.isSome_iff_exists.mp complete.1
  obtain ⟨body, bodyFound⟩ := Option.isSome_iff_exists.mp complete.2
  refine ⟨_, by simp only [describe?, nameFound, bodyFound]; rfl, ?_⟩
  rw [add_attributes rfl, bodyOf, bodyFound]

theorem class_names_lead (body : List SyntaxTree) :
    ((bodySights (expressionsOf body)).map Attribute.name).eraseDups <+:
      (settled (sightsOf body)).map Attribute.name := by
  rw [settled_names, sights_split, List.map_append, List.eraseDups_append]
  exact List.prefix_append _ _

-- The attributes depend on the expressions of the class body and on the functions that it defines,
-- each in their order, and on nothing else; the names first seen in the body lead. Methods in
-- another order give the same names, and the same types too if no two annotations of a name differ:
-- the annotation of the name if it has one, else none.
theorem attributes_follow_expressions_and_methods {definition other : SyntaxTree}
    (complete : Named definition) (otherComplete : Named other)
    (expressions : expressionsOf (bodyOf other) = expressionsOf (bodyOf definition)) :
    ∃ record changed, describe? definition = some record ∧ describe? other = some changed ∧
      ((bodySights (expressionsOf (bodyOf definition))).map Attribute.name).eraseDups <+:
        record.attributes.map Attribute.name ∧
      (methodsOf (bodyOf other) = methodsOf (bodyOf definition) →
        changed.attributes = record.attributes) ∧
      ((methodsOf (bodyOf other)).Perm (methodsOf (bodyOf definition)) →
        (changed.attributes.map Attribute.name).Perm (record.attributes.map Attribute.name) ∧
        (Agree (sightsOf (bodyOf definition)) →
          changed.attributes.Perm record.attributes ∧
          ∀ member ∈ record.attributes,
            (∀ sight ∈ sightsOf (bodyOf definition), sight.name = member.name →
              sight.declaredType ≠ "" → member.declaredType = sight.declaredType) ∧
            ((∀ sight ∈ sightsOf (bodyOf definition), sight.name = member.name →
              sight.declaredType = "") → member.declaredType = ""))) := by
  obtain ⟨record, described, attributes⟩ := attributes_settled complete
  obtain ⟨changed, redescribed, others⟩ := attributes_settled otherComplete
  refine ⟨record, changed, described, redescribed, ?_, ?_, ?_⟩
  · rw [attributes]
    exact class_names_lead (bodyOf definition)
  · intro methods
    rw [attributes, others, sights_split, sights_split (bodyOf definition), expressions, methods]
  · intro methods
    have same := sights_reordered expressions methods
    rw [attributes, others]
    refine ⟨?_, fun agree => ⟨settled_reordered same agree, fun member present => ?_⟩⟩
    · rw [settled_names, settled_names]
      exact names_reordered same
    · obtain ⟨name, -, rfl⟩ := List.mem_map.mp present
      refine ⟨fun sight seen named declares => ?_, last_type_bare⟩
      subst named
      exact last_type_agreed agree seen declares

def assignmentTree (name : String) : SyntaxTree :=
  .phrase .expressionStatement "" [.node .assignment "" [(.left, .leaf .identifier name)]]

def setterTree (member type : String) : SyntaxTree :=
  .node .functionDefinition "" [(.body, .phrase .block "" [.phrase .expressionStatement ""
    [.node .assignment "" [(.left, .node .attribute ""
        [(.object, .leaf .identifier "self"), (.attribute, .leaf .identifier member)]),
      (.declared, .phrase .typeNode type [.leaf .identifier type])]]])]

def classTree (name : String) (body : List SyntaxTree) : SyntaxTree :=
  .node .classDefinition "" [(.name, .leaf .identifier name), (.body, .phrase .block "" body)]

theorem attributes_of_swapped_setters :
    ((methodsOf (bodyOf (classTree "A"
        [setterTree "z" "str", assignmentTree "x", setterTree "y" "int"]))).Perm
      (methodsOf (bodyOf (classTree "A"
        [assignmentTree "x", setterTree "y" "int", setterTree "z" "str"]))) ∧
      Agree (sightsOf (bodyOf (classTree "A"
        [assignmentTree "x", setterTree "y" "int", setterTree "z" "str"])))) ∧
    ∃ record changed,
      describe? (classTree "A"
        [assignmentTree "x", setterTree "y" "int", setterTree "z" "str"]) = some record ∧
      describe? (classTree "A"
        [setterTree "z" "str", assignmentTree "x", setterTree "y" "int"]) = some changed ∧
      changed.attributes.Perm record.attributes := by
  have swapped : (methodsOf (bodyOf (classTree "A"
        [setterTree "z" "str", assignmentTree "x", setterTree "y" "int"]))).Perm
      (methodsOf (bodyOf (classTree "A"
        [assignmentTree "x", setterTree "y" "int", setterTree "z" "str"]))) :=
    .swap (setterTree "y" "int") (setterTree "z" "str") []
  have agree : Agree (sightsOf (bodyOf (classTree "A"
      [assignmentTree "x", setterTree "y" "int", setterTree "z" "str"]))) := by
    decide +kernel
  have expressions : expressionsOf (bodyOf (classTree "A"
        [setterTree "z" "str", assignmentTree "x", setterTree "y" "int"])) =
      expressionsOf (bodyOf (classTree "A"
        [assignmentTree "x", setterTree "y" "int", setterTree "z" "str"])) := rfl
  obtain ⟨record, changed, described, redescribed, -, -, reordered⟩ :=
    attributes_follow_expressions_and_methods ⟨rfl, rfl⟩ ⟨rfl, rfl⟩ expressions
  exact ⟨⟨swapped, agree⟩, record, changed, described, redescribed, ((reordered swapped).2 agree).1⟩

end SourceDiagram.ObjectModel
