import SourceDiagram.ObjectModel.Description
import SourceDiagram.Proofs.ObjectModel.Assignments

set_option autoImplicit false

namespace SourceDiagram.ObjectModel

open SourceDiagram.Model
open SourceDiagram.Syntax
open SourceDiagram.Syntax.Statement

inductive Bodied (members : List AttributeText) : List SyntaxTree → Prop where
  | pass : members = [] → Bodied members [.leaf .passStatement "pass"]
  | lines {trees : List SyntaxTree} : List.Forall₂ (Line methodSights) members trees →
      Bodied members trees

theorem pass_calm : Calm (.leaf .passStatement "pass") :=
  calm_leaf (by decide) rfl

section

variable {members : List AttributeText} {trees : List SyntaxTree}

theorem lines_assigned {sights : SyntaxTree → List Attribute}
    (lines : List.Forall₂ (Line sights) members trees) :
    ∀ tree ∈ trees.flatMap SyntaxTree.parts, tree.kind = .assignment := by
  have inner : ∀ statement ∈ trees, ∀ tree ∈ statement.parts, tree.kind = .assignment := by
    refine forall_right lines fun member statement line => ?_
    obtain ⟨assigned, sighted⟩ := line
    simpa [sighted.parts] using sighted.kind
  intro tree member
  obtain ⟨statement, present, inside⟩ := List.mem_flatMap.mp member
  exact inner statement present tree inside

theorem lines_walk (lines : List.Forall₂ (Line methodSights) members trees) :
    (outermost trees).flatMap methodSights = members.map AttributeText.sight := by
  have statements : ∀ tree ∈ trees, tree.kind ≠ .assignment :=
    forall_right lines fun _ _ line => by simp [line.kind]
  have walk : outermost (trees ++ []) = outermost ([] ++ trees.flatMap SyntaxTree.parts) :=
    outermost_statements statements
  rw [List.append_nil, List.nil_append, outermost_assignments (lines_assigned lines)] at walk
  have sights : ∀ member tree, Line methodSights member tree →
      tree.parts.flatMap methodSights = [member.sight] := by
    rintro member tree ⟨assigned, sighted⟩
    rw [sighted.parts, List.flatMap_singleton, sighted.sights]
  rw [walk, List.flatMap_assoc, flat_map_right lines sights, List.map_eq_flatMap]

theorem Bodied.walk (bodied : Bodied members trees) :
    (outermost trees).flatMap methodSights = members.map AttributeText.sight := by
  cases bodied with
  | pass empty =>
    rw [empty, outermost_thins (thins_quiet (by simpa using pass_calm.quiet)), outermost]
    rfl
  | lines lines => exact lines_walk lines

theorem Bodied.accepted (bodied : Bodied members trees) :
    ∀ tree ∈ trees, hasRefused tree = false := by
  cases bodied with
  | pass => simpa using pass_calm.accepted
  | lines lines => exact forall_right lines fun _ _ line => line.accepted

theorem Bodied.parts (bodied : Bodied members trees) : ∀ tree ∈ trees, tree.isPart = true := by
  cases bodied with
  | pass => exact List.forall_mem_singleton.mpr rfl
  | lines lines => exact forall_right lines fun _ _ line => line.part

end

inductive Results (body : SyntaxTree) : Option TypeText → List (Role × SyntaxTree) → Prop where
  | none : Results body none [(.body, body)]
  | some {type : TypeText} {tree : SyntaxTree} : Told type.val tree →
      Results body (some type) [(.returnType, tree), (.body, body)]

section

variable {body : SyntaxTree} {type : Option TypeText} {children : List (Role × SyntaxTree)}

theorem Results.accepted (results : Results body type children)
    (block : hasRefused body = false) : ∀ child ∈ children, hasRefused child.2 = false := by
  cases results with
  | none => simpa using block
  | some told => simpa using ⟨told.calm.accepted, block⟩

theorem Results.returned (results : Results body type children) :
    unparse ((children.find? fun child => child.1 = .returnType).map Prod.snd) =
      declaredType type := by
  cases results with
  | none => rfl
  | some told => exact declared_told told

theorem Results.thins (results : Results body type children) (block : body.isPart = true) :
    Thins ((children.map Prod.snd).filter SyntaxTree.isPart) [body] := by
  cases results with
  | none => simpa [block] using Thins.refl [body]
  | some told => simpa [block, told.part] using Thins.drop told.calm.quiet (.refl [body])

end

structure Function (method : MethodText) (tree : SyntaxTree)
    (parameters body : List SyntaxTree) (results : List (Role × SyntaxTree)) : Prop where
  shape : tree = .node .functionDefinition ""
    ((.name, .leaf .identifier (String.ofList method.name.val)) ::
      (.parameters, .phrase .parameters "" parameters) :: results)
  takes : List.Forall₂ Takes method.entries parameters
  results : Results (.phrase .block "" body) method.result results
  bodied : Bodied method.attributes body

theorem phrase_parts (kind : Kind) (text : String) {trees : List SyntaxTree}
    (parts : ∀ tree ∈ trees, tree.isPart = true) :
    (SyntaxTree.phrase kind text trees).parts = trees := by
  have children : (trees.map fun tree => (Role.plain, tree)).map Prod.snd = trees := by
    simp [Function.comp_def]
  rw [SyntaxTree.phrase, SyntaxTree.parts, SyntaxTree.children_node, children]
  exact List.filter_eq_self.mpr parts

theorem phrase_accepted {kind : Kind} {text : String} {trees : List SyntaxTree}
    (own : isRefused kind (trees.map fun tree => (.plain, tree)) = false)
    (accepted : ∀ tree ∈ trees, hasRefused tree = false) :
    hasRefused (.phrase kind text trees) = false := by
  refine accepted_node own fun child member => ?_
  obtain ⟨tree, present, rfl⟩ := List.mem_map.mp member
  exact accepted tree present

theorem declared_parts {entries : List ParameterText} {trees : List SyntaxTree}
    (takes : List.Forall₂ Takes entries trees) : ∀ tree ∈ trees, tree.isPart = true :=
  forall_right takes fun _ _ takes => takes.part

theorem without_receiver (kind : MethodKind) (entries : List ParameterText) :
    withoutReceiver kind ((receiver kind ++ entries).map ParameterText.parameter) =
      entries.map ParameterText.parameter := by
  have self : String.ofList ['s', 'e', 'l', 'f'] = "self" := by decide
  have cls : String.ofList ['c', 'l', 's'] = "cls" := by decide
  cases kind with
  | instanceMethod =>
    simp [withoutReceiver, receiver, MethodKind.receiver?, ParameterText.parameter, Stars.text,
      self]
  | classMethod =>
    simp [withoutReceiver, receiver, MethodKind.receiver?, ParameterText.parameter, Stars.text,
      cls]
  | staticMethod => rfl

namespace Function

variable {method : MethodText} {tree : SyntaxTree} {parameters body : List SyntaxTree}
  {results : List (Role × SyntaxTree)}

theorem accepted (function : Function method tree parameters body results) :
    hasRefused tree = false := by
  have name := (told_name method.name.val).calm.accepted
  have entries : hasRefused (.phrase .parameters "" parameters) = false := by
    refine phrase_accepted ?_ (forall_right function.takes fun _ _ entry => entry.calm.accepted)
    have parts := phrase_parts .parameters "" (declared_parts function.takes)
    exact (congrArg (requiredAfterDefault false) parts).trans (none_required function.takes)
  have block : hasRefused (.phrase .block "" body) = false :=
    phrase_accepted rfl function.bodied.accepted
  rw [function.shape]
  refine accepted_node rfl ?_
  simp only [List.forall_mem_cons]
  exact ⟨name, entries, function.results.accepted block⟩

theorem sights (function : Function method tree parameters body results) :
    selfSights tree = method.attributes.map AttributeText.sight := by
  have entries : Quiet (.phrase .parameters "" parameters) := by
    refine .node (by decide) fun child member => ?_
    obtain ⟨entry, present, rfl⟩ := List.mem_map.mp member
    exact forall_right function.takes (fun _ _ takes => takes.calm.quiet) entry present
  have name := (told_name method.name.val).calm.quiet
  have parts : Thins tree.parts [.phrase .block "" body] := by
    rw [function.shape]
    exact .drop name (.drop entries (function.results.thins rfl))
  have inner : (SyntaxTree.phrase .block "" body).parts = body :=
    phrase_parts .block "" function.bodied.parts
  have outer : tree.kind ≠ .assignment := by
    rw [function.shape]
    simp
  calc (outermost [tree]).flatMap methodSights
      = (outermost tree.parts).flatMap methodSights := by
        rw [outermost, if_neg outer, List.nil_append]
    _ = (outermost [.phrase .block "" body]).flatMap methodSights := by rw [outermost_thins parts]
    -- Only the block is left in the queue, and its statements take its place.
    _ = (outermost body).flatMap methodSights := by
        rw [outermost, if_neg (by simp [SyntaxTree.phrase]), inner, List.nil_append]
    _ = method.attributes.map AttributeText.sight := function.bodied.walk

theorem method_of (function : Function method tree parameters body results)
    {decorators : List SyntaxTree} (kind : methodKind decorators = method.kind) :
    methodOf tree decorators = method.method := by
  have name : tree.field? .name = some (.leaf .identifier (String.ofList method.name.val)) := by
    rw [function.shape]
    rfl
  have entries : tree.field? .parameters = some (.phrase .parameters "" parameters) := by
    rw [function.shape]
    rfl
  have result : unparse (tree.field? .returnType) = declaredType method.result := by
    rw [← function.results.returned, function.shape]
    rfl
  have declared : parameters.filterMap parameter? =
      method.entries.map ParameterText.parameter :=
    filter_map_right function.takes fun _ _ takes => takes.declared
  simp only [methodOf, name, entries, result, kind,
    phrase_parts .parameters "" (declared_parts function.takes), declared, MethodText.entries,
    without_receiver]
  rfl

end Function

structure Describes (method : MethodText) (statement : SyntaxTree) : Prop where
  part : statement.isPart = true
  accepted : hasRefused statement = false
  other : statement.kind ≠ .expressionStatement
  function : ∃ function, definition? .functionDefinition statement = some function ∧
    methodOf function (decoratorsOf statement) = method.method ∧
    selfSights function = method.attributes.map AttributeText.sight

theorem bare_kind {kind : MethodKind} (bare : MethodText.decorator? kind = none) :
    methodKind [] = kind := by
  cases kind with
  | instanceMethod => rfl
  | classMethod => cases bare
  | staticMethod => cases bare

theorem decorated_kind {kind : MethodKind} {word : List Char}
    (decorated : MethodText.decorator? kind = some word) :
    methodKind [.phrase .decorator "" [.leaf .identifier (String.ofList word)]] = kind := by
  cases kind with
  | instanceMethod => cases decorated
  | classMethod =>
    cases decorated
    decide
  | staticMethod =>
    cases decorated
    decide

section

variable {method : MethodText} {tree : SyntaxTree} {parameters body : List SyntaxTree}
  {results : List (Role × SyntaxTree)}

theorem Function.kind (function : Function method tree parameters body results) :
    tree.kind = .functionDefinition := by
  rw [function.shape]
  rfl

theorem plain_describes (function : Function method tree parameters body results)
    (bare : MethodText.decorator? method.kind = none) : Describes method tree := by
  have same := function.kind
  have decorators : decoratorsOf tree = [] := by
    rw [decoratorsOf, same, if_neg (by decide)]
  refine ⟨?_, function.accepted, ?_, tree, ?_, ?_, function.sights⟩
  · rw [SyntaxTree.isPart, same]
    rfl
  · rw [same]
    decide
  · rw [definition?, if_pos same]
  · rw [decorators, function.method_of (bare_kind bare)]

theorem decorated_describes (function : Function method tree parameters body results)
    {word : List Char} (decorated : MethodText.decorator? method.kind = some word) :
    Describes method (.node .decoratedDefinition ""
      [(.plain, .phrase .decorator "" [.leaf .identifier (String.ofList word)]),
        (.definition, tree)]) := by
  have same := function.kind
  have calm : Calm (.phrase .decorator "" [.leaf .identifier (String.ofList word)]) :=
    calm_phrase (by decide) (fun _ => rfl) (by simpa using (told_name word).calm)
  have decorators : decoratorsOf (.node .decoratedDefinition ""
      [(.plain, .phrase .decorator "" [.leaf .identifier (String.ofList word)]),
        (.definition, tree)]) =
      [.phrase .decorator "" [.leaf .identifier (String.ofList word)]] := by
    simp [decoratorsOf, SyntaxTree.parts, SyntaxTree.phrase, SyntaxTree.isPart,
      Kind.isExtra, same]
  refine ⟨rfl, ?_, by simp, tree, ?_, ?_, function.sights⟩
  · refine accepted_node rfl ?_
    simp only [List.forall_mem_cons]
    exact ⟨calm.accepted, function.accepted, by simp⟩
  · simp [definition?, SyntaxTree.field?, same]
  · rw [decorators, function.method_of (decorated_kind decorated)]

end

end SourceDiagram.ObjectModel
