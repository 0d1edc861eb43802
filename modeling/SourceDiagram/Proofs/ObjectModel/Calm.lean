import SourceDiagram.ObjectModel.Description
import SourceDiagram.ObjectModel.Session
import SourceDiagram.Syntax.Tree

set_option autoImplicit false

namespace SourceDiagram.ObjectModel

open SourceDiagram.Syntax

inductive Quiet : SyntaxTree → Prop where
  | node {kind : Kind} {text : String} {children : List (Role × SyntaxTree)} :
      kind ≠ .assignment → (∀ child ∈ children, Quiet child.2) → Quiet (.node kind text children)

structure Calm (tree : SyntaxTree) : Prop where
  quiet : Quiet tree
  accepted : hasRefused tree = false

theorem any_refused_false {children : List (Role × SyntaxTree)}
    (accepted : ∀ child ∈ children, hasRefused child.2 = false) : anyRefused children = false := by
  induction children with
  | nil => rw [anyRefused]
  | cons child children ih =>
    obtain ⟨first, later⟩ := List.forall_mem_cons.mp accepted
    obtain ⟨role, tree⟩ := child
    rw [anyRefused, first, ih later, Bool.and_false, Bool.or_false]

theorem accepted_node {kind : Kind} {text : String} {children : List (Role × SyntaxTree)}
    (own : isRefused kind children = false)
    (accepted : ∀ child ∈ children, hasRefused child.2 = false) :
    hasRefused (.node kind text children) = false := by
  rw [hasRefused, own, any_refused_false accepted, Bool.or_false]

theorem Calm.node {kind : Kind} {text : String} {children : List (Role × SyntaxTree)}
    (other : kind ≠ .assignment) (own : isRefused kind children = false)
    (calm : ∀ child ∈ children, Calm child.2) : Calm (.node kind text children) :=
  ⟨.node other fun child member => (calm child member).quiet,
    accepted_node own fun child member => (calm child member).accepted⟩

theorem calm_phrase {kind : Kind} {text : String} {children : List SyntaxTree}
    (other : kind ≠ .assignment) (own : ∀ children, isRefused kind children = false)
    (calm : ∀ child ∈ children, Calm child) : Calm (.phrase kind text children) := by
  refine .node other (own _) fun child member => ?_
  obtain ⟨tree, present, rfl⟩ := List.mem_map.mp member
  exact calm tree present

theorem calm_leaf {kind : Kind} {text : String} (other : kind ≠ .assignment)
    (own : isRefused kind [] = false) : Calm (.leaf kind text) :=
  .node other own (by simp)

inductive Thins : List SyntaxTree → List SyntaxTree → Prop where
  | nil : Thins [] []
  | keep {tree : SyntaxTree} {queue thin : List SyntaxTree} : Thins queue thin →
      Thins (tree :: queue) (tree :: thin)
  | drop {tree : SyntaxTree} {queue thin : List SyntaxTree} : Quiet tree → Thins queue thin →
      Thins (tree :: queue) thin

theorem Thins.refl (queue : List SyntaxTree) : Thins queue queue := by
  induction queue with
  | nil => exact .nil
  | cons tree queue ih => exact .keep ih

theorem Thins.append {front front' back back' : List SyntaxTree} (first : Thins front front')
    (second : Thins back back') : Thins (front ++ back) (front' ++ back') := by
  induction first with
  | nil => exact second
  | keep _ ih => exact .keep ih
  | drop quiet _ ih => exact .drop quiet ih

theorem thins_quiet {queue : List SyntaxTree} (quiet : ∀ tree ∈ queue, Quiet tree) :
    Thins queue [] := by
  induction queue with
  | nil => exact .nil
  | cons tree queue ih =>
    obtain ⟨first, later⟩ := List.forall_mem_cons.mp quiet
    exact .drop first (ih later)

theorem Quiet.parts {tree : SyntaxTree} (quiet : Quiet tree) : ∀ part ∈ tree.parts, Quiet part := by
  cases quiet with
  | node _ inner =>
    intro part member
    obtain ⟨role, present⟩ := part_is_child member
    exact inner (role, part) present

theorem Quiet.other {tree : SyntaxTree} (quiet : Quiet tree) : tree.kind ≠ .assignment := by
  cases quiet with
  | node other _ => exact other

theorem outermost_thins {queue thin : List SyntaxTree} (thins : Thins queue thin) :
    outermost queue = outermost thin := by
  -- The walk puts the parts of a tree at the end of the queue, so no structure gets smaller, only
  -- the number of nodes in the queue.
  induction size : queueSize queue using Nat.strongRecOn generalizing queue thin with
  | _ count ih =>
    subst size
    cases thins with
    | nil => rfl
    | @keep tree queue thin thins =>
      have positive := SyntaxTree.size_pos tree
      have shorter := parts_size_lt tree
      rw [outermost, outermost]
      by_cases assigned : tree.kind = .assignment
      · rw [if_pos assigned, if_pos assigned, ih _ _ thins rfl]
        simp only [queueSize]
        omega
      · rw [if_neg assigned, if_neg assigned, ih _ _ (thins.append (.refl tree.parts)) rfl]
        simp only [queue_size_append, queueSize]
        omega
    | @drop tree queue thin quiet thins =>
      have shorter := parts_size_lt tree
      rw [outermost, if_neg quiet.other]
      have rest := thins.append (thins_quiet quiet.parts)
      rw [List.append_nil] at rest
      refine ih _ ?_ rest rfl
      simp only [queue_size_append, queueSize]
      omega

theorem outermost_assignments {queue : List SyntaxTree}
    (assigned : ∀ tree ∈ queue, tree.kind = .assignment) : outermost queue = queue := by
  induction queue with
  | nil => rw [outermost]
  | cons tree queue ih =>
    obtain ⟨first, later⟩ := List.forall_mem_cons.mp assigned
    rw [outermost, if_pos first, ih later]

theorem outermost_statements {statements found : List SyntaxTree}
    (plain : ∀ tree ∈ statements, tree.kind ≠ .assignment) :
    outermost (statements ++ found) = outermost (found ++ statements.flatMap SyntaxTree.parts) := by
  induction statements generalizing found with
  | nil => rw [List.flatMap_nil, List.append_nil, List.nil_append]
  | cons tree statements ih =>
    obtain ⟨first, later⟩ := List.forall_mem_cons.mp plain
    rw [List.cons_append, outermost, if_neg first, List.append_assoc, ih later, List.flatMap_cons,
      List.append_assoc]

end SourceDiagram.ObjectModel
