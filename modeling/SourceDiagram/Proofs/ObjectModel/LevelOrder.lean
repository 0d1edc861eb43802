import Mathlib.Data.List.Forall2
import Mathlib.Data.List.Shortlex
import SourceDiagram.ObjectModel.Description
import SourceDiagram.Proofs.Relation
import SourceDiagram.Syntax.Tree

set_option autoImplicit false

namespace SourceDiagram.ObjectModel

open SourceDiagram.Model
open SourceDiagram.Syntax

-- The tree at a place below another one: the place tells which part to take at each step down.
def treeAt? : List Nat → SyntaxTree → Option SyntaxTree
  | [], tree => some tree
  | index :: place, tree => tree.parts[index]?.bind (treeAt? place)

-- An assignment at a place with none above it.
structure OutermostAt (tree : SyntaxTree) (place : List Nat) (assignment : SyntaxTree) : Prop where
  found : treeAt? place tree = some assignment
  assigned : assignment.kind = .assignment
  outer : ∀ above, above <+: place → above ≠ place → ∀ other,
    treeAt? above tree = some other → other.kind ≠ .assignment

def outermostAt? : List Nat → SyntaxTree → Option SyntaxTree
  | [], tree => if tree.kind = .assignment then some tree else none
  | index :: place, tree =>
    if tree.kind = .assignment then none else tree.parts[index]?.bind (outermostAt? place)

theorem outermost_here (tree assignment : SyntaxTree) :
    OutermostAt tree [] assignment ↔ tree.kind = .assignment ∧ tree = assignment := by
  constructor
  · intro outermost
    obtain rfl := Option.some.inj outermost.found
    exact ⟨outermost.assigned, rfl⟩
  · rintro ⟨assigned, rfl⟩
    exact ⟨rfl, assigned, fun above inside other => absurd (List.prefix_nil.mp inside) other⟩

theorem outermost_below (tree assignment : SyntaxTree) (index : Nat) (place : List Nat) :
    OutermostAt tree (index :: place) assignment ↔ tree.kind ≠ .assignment ∧
      ∃ part, tree.parts[index]? = some part ∧ OutermostAt part place assignment := by
  constructor
  · rintro ⟨found, assigned, outer⟩
    rw [treeAt?, Option.bind_eq_some_iff] at found
    obtain ⟨part, present, below⟩ := found
    refine ⟨outer [] List.nil_prefix (List.cons_ne_nil _ _).symm tree rfl, part, present, below,
      assigned, ?_⟩
    intro above inside other between known
    refine outer (index :: above) (List.cons_prefix_cons.mpr ⟨rfl, inside⟩) ?_ between ?_
    · exact fun same => other (List.cons.inj same).2
    · rw [treeAt?, present, Option.bind_some, known]
  · rintro ⟨free, part, present, found, assigned, outer⟩
    refine ⟨by rw [treeAt?, present, Option.bind_some, found], assigned, ?_⟩
    intro above inside other between known
    cases above with
    | nil =>
      obtain rfl := Option.some.inj known
      exact free
    | cons first above =>
      obtain ⟨rfl, deeper⟩ := List.cons_prefix_cons.mp inside
      rw [treeAt?, present, Option.bind_some] at known
      exact outer above deeper (fun same => other (by rw [same])) between known

theorem outermost_at_iff (place : List Nat) (tree assignment : SyntaxTree) :
    outermostAt? place tree = some assignment ↔ OutermostAt tree place assignment := by
  induction place generalizing tree with
  | nil =>
    rw [outermostAt?, outermost_here]
    by_cases assigned : tree.kind = .assignment
    · rw [if_pos assigned]
      simp [assigned]
    · rw [if_neg assigned]
      simp [assigned]
  | cons index place ih =>
    rw [outermostAt?, outermost_below]
    by_cases assigned : tree.kind = .assignment
    · rw [if_pos assigned]
      simp [assigned]
    · rw [if_neg assigned, Option.bind_eq_some_iff]
      simp [assigned, ih]

theorem place_length_lt {place : List Nat} {tree assignment : SyntaxTree}
    (found : outermostAt? place tree = some assignment) : place.length < tree.size := by
  induction place generalizing tree with
  | nil => exact tree.size_pos
  | cons index place ih =>
    rw [outermostAt?] at found
    by_cases assigned : tree.kind = .assignment
    · rw [if_pos assigned] at found
      cases found
    · rw [if_neg assigned, Option.bind_eq_some_iff] at found
      obtain ⟨part, present, below⟩ := found
      have deeper := ih below
      have smaller := part_size_lt (List.mem_of_getElem? present)
      rw [List.length_cons]
      omega

def inner (tree : SyntaxTree) : List SyntaxTree :=
  if tree.kind = .assignment then [] else tree.parts

def assignedAt : Nat → SyntaxTree → List SyntaxTree
  | 0, tree => if tree.kind = .assignment then [tree] else []
  | depth + 1, tree => (inner tree).flatMap (assignedAt depth)

theorem inner_size_lt (tree : SyntaxTree) : queueSize (inner tree) < tree.size := by
  rw [inner]
  by_cases assigned : tree.kind = .assignment
  · rw [if_pos assigned]
    exact tree.size_pos
  · rw [if_neg assigned]
    exact parts_size_lt tree

theorem inner_size_le (trees : List SyntaxTree) :
    queueSize (trees.flatMap inner) + trees.length ≤ queueSize trees := by
  induction trees with
  | nil => exact Nat.le_refl 0
  | cons tree trees ih =>
    have smaller := inner_size_lt tree
    rw [List.flatMap_cons, queue_size_append, queueSize, List.length_cons]
    omega

-- While the rest of a level is in front, the queue behind it is the beginning of the next level.
theorem level_passed (level next : List SyntaxTree) :
    outermost (level ++ next) =
      level.flatMap (assignedAt 0) ++ outermost (next ++ level.flatMap inner) := by
  induction level generalizing next with
  | nil => simp
  | cons tree level ih =>
    rw [List.cons_append, outermost, List.flatMap_cons, List.flatMap_cons, assignedAt, inner]
    by_cases assigned : tree.kind = .assignment
    · rw [if_pos assigned, if_pos assigned, if_pos assigned, ih]
      simp
    · rw [if_neg assigned, if_neg assigned, if_neg assigned, List.append_assoc, ih]
      simp

theorem outermost_level_by_level {count : Nat} {trees : List SyntaxTree}
    (bound : queueSize trees ≤ count) :
    outermost trees = (List.range count).flatMap fun depth => trees.flatMap (assignedAt depth) := by
  induction count generalizing trees with
  | zero =>
    cases trees with
    | nil => rw [outermost]; rfl
    | cons tree trees =>
      have positive := tree.size_pos
      rw [queueSize] at bound
      omega
  | succ count ih =>
    have lower : queueSize (trees.flatMap inner) ≤ count := by
      have smaller := inner_size_le trees
      cases trees with
      | nil => exact Nat.zero_le count
      | cons tree trees =>
        rw [List.length_cons] at smaller
        omega
    have passed := level_passed trees []
    rw [List.append_nil, List.nil_append, ih lower] at passed
    rw [passed, List.range_succ_eq_map, List.flatMap_cons, List.flatMap_map]
    simp only [List.flatMap_assoc]
    rfl

def outermostIn? (depth : Nat) (tree : SyntaxTree) (place : List Nat) : Option SyntaxTree :=
  if place.length = depth then outermostAt? place tree else none

theorem outermost_in_cons (depth : Nat) (tree : SyntaxTree) (index : Nat) (place : List Nat) :
    outermostIn? (depth + 1) tree (index :: place) =
      (inner tree)[index]?.bind fun part => outermostIn? depth part place := by
  simp only [outermostIn?, List.length_cons, Nat.add_right_cancel_iff, outermostAt?, inner]
  by_cases assigned : tree.kind = .assignment
  · simp [assigned]
  · rw [if_neg assigned, if_neg assigned]
    by_cases level : place.length = depth
    · simp only [if_pos level]
    · simp [level]

theorem level_in_order (depth : Nat) (tree : SyntaxTree) :
    InOrder (List.Lex (· < ·)) (outermostIn? depth tree) (assignedAt depth tree) := by
  induction depth generalizing tree with
  | zero =>
    have top : ∀ place, (outermostIn? 0 tree place).isSome → place = [] ∧ tree.kind = .assignment := by
      intro place present
      cases place with
      | nil =>
        by_cases assigned : tree.kind = .assignment
        · exact ⟨rfl, assigned⟩
        · simp [outermostIn?, outermostAt?, assigned] at present
      | cons index place => simp [outermostIn?] at present
    by_cases assigned : tree.kind = .assignment
    · refine ⟨[[]], List.pairwise_singleton _ _, ?_, ?_⟩
      · simp [outermostIn?, outermostAt?, assignedAt, assigned]
      · exact fun place present => List.mem_singleton.mpr (top place present).1
    · refine ⟨[], .nil, ?_, ?_⟩
      · simp [assignedAt, assigned]
      · exact fun place present => absurd (top place present).2 assigned
  | succ depth ih =>
    have rows := in_order_rows ih (inner tree)
    refine rows.relabel (fun place => place.1 :: place.2) ?_ ?_ ?_
    · rintro ⟨index, place⟩ -
      exact outermost_in_cons depth tree index place
    · rintro ⟨first, place⟩ ⟨second, other⟩ - - less
      rcases Prod.lex_def.mp less with above | ⟨same, beside⟩
      · exact .rel above
      · obtain rfl : first = second := same
        exact .cons beside
    · intro place present
      cases place with
      | nil => simp [outermostIn?] at present
      | cons index place =>
        rw [outermost_in_cons] at present
        exact ⟨(index, place), present, rfl⟩

theorem in_level_iff (tree assignment : SyntaxTree) (depth : Nat) (place : List Nat) :
    ((List.range tree.size)[depth]?.bind fun depth => outermostIn? depth tree place) =
        some assignment ↔
      depth = place.length ∧ outermostAt? place tree = some assignment := by
  rw [Option.bind_eq_some_iff]
  constructor
  · rintro ⟨level, listed, found⟩
    obtain ⟨inside, rfl⟩ := List.getElem?_eq_some_iff.mp listed
    rw [List.getElem_range, outermostIn?] at found
    by_cases same : place.length = depth
    · rw [if_pos same] at found
      exact ⟨same.symm, found⟩
    · rw [if_neg same] at found
      cases found
  · rintro ⟨rfl, found⟩
    refine ⟨place.length, List.getElem?_range (place_length_lt found), ?_⟩
    rw [outermostIn?, if_pos rfl, found]

theorem outermost_in_order (tree : SyntaxTree) :
    InOrder (List.Shortlex (· < ·)) (fun place => outermostAt? place tree) (outermost [tree]) := by
  have levels := @outermost_level_by_level tree.size [tree] (Nat.le_refl _)
  simp only [List.flatMap_singleton] at levels
  have rows := in_order_rows (fun depth => level_in_order depth tree) (List.range tree.size)
  rw [← levels] at rows
  refine rows.relabel Prod.snd ?_ ?_ ?_
  · rintro ⟨depth, place⟩ present
    obtain ⟨assignment, found⟩ := Option.isSome_iff_exists.mp present
    rw [found]
    exact ((in_level_iff _ _ _ _).mp found).2
  · rintro ⟨first, place⟩ ⟨second, other⟩ present known less
    obtain ⟨assignment, found⟩ := Option.isSome_iff_exists.mp present
    obtain ⟨next, later⟩ := Option.isSome_iff_exists.mp known
    have upper : first = place.length := ((in_level_iff _ _ _ _).mp found).1
    have lower : second = other.length := ((in_level_iff _ _ _ _).mp later).1
    subst upper lower
    rcases Prod.lex_def.mp less with above | ⟨level, beside⟩
    · exact .of_length_lt above
    · exact .of_lex level beside
  · intro place present
    obtain ⟨assignment, found⟩ := Option.isSome_iff_exists.mp present
    refine ⟨(place.length, place), ?_, rfl⟩
    exact Option.isSome_iff_exists.mpr ⟨assignment, (in_level_iff _ _ _ _).mpr ⟨rfl, found⟩⟩

structure Walk where
  queue : List SyntaxTree
  met : List SyntaxTree

def Walk.round (walk : Walk) : Walk :=
  match walk.queue with
  | [] => walk
  | tree :: queue =>
    if tree.kind = .assignment then ⟨queue, walk.met ++ [tree]⟩
    else ⟨queue ++ tree.parts, walk.met⟩

theorem walk_ends (queue met : List SyntaxTree) :
    ∃ rounds ≤ queueSize queue, Walk.round^[rounds] ⟨queue, met⟩ = ⟨[], met ++ outermost queue⟩ := by
  induction size : queueSize queue using Nat.strongRecOn generalizing queue met with
  | _ count ih =>
    subst size
    cases queue with
    | nil =>
      refine ⟨0, Nat.le_refl 0, ?_⟩
      rw [outermost, List.append_nil]
      rfl
    | cons tree queue =>
      have positive := tree.size_pos
      have shorter := parts_size_lt tree
      by_cases assigned : tree.kind = .assignment
      · have step : Walk.round ⟨tree :: queue, met⟩ = ⟨queue, met ++ [tree]⟩ := if_pos assigned
        obtain ⟨rounds, bound, ended⟩ := ih (queueSize queue) (by rw [queueSize]; omega)
          queue (met ++ [tree]) rfl
        refine ⟨rounds + 1, by rw [queueSize]; omega, ?_⟩
        rw [Function.iterate_succ_apply, step, ended, outermost, if_pos assigned,
          List.append_assoc, List.singleton_append]
      · have step : Walk.round ⟨tree :: queue, met⟩ = ⟨queue ++ tree.parts, met⟩ := if_neg assigned
        have smaller : queueSize (queue ++ tree.parts) < queueSize (tree :: queue) := by
          rw [queue_size_append, queueSize]
          omega
        obtain ⟨rounds, bound, ended⟩ := ih _ smaller (queue ++ tree.parts) met rfl
        refine ⟨rounds + 1, by omega, ?_⟩
        rw [Function.iterate_succ_apply, step, ended, outermost, if_neg assigned]

inductive Chained : SyntaxTree → List SyntaxTree → Prop where
  | last {tree : SyntaxTree} : (∀ right, tree.field? .right = some right →
      right.kind ≠ .assignment) → Chained tree [tree]
  | next {tree right : SyntaxTree} {links : List SyntaxTree} : tree.field? .right = some right →
      right.kind = .assignment → Chained right links → Chained tree (tree :: links)

theorem chain_right_of (children : List (Role × SyntaxTree)) :
    chainRight children =
      match (children.find? fun child => child.1 = .right).map Prod.snd with
      | some right => if right.kind = .assignment then chain right else []
      | none => [] := by
  induction children with
  | nil => rw [chainRight]; rfl
  | cons child children ih =>
    obtain ⟨role, tree⟩ := child
    rw [chainRight, List.find?_cons]
    by_cases right : role = .right
    · simp [right]
    · simpa [right] using ih

theorem chain_of (tree : SyntaxTree) :
    chain tree = tree ::
      match tree.field? .right with
      | some right => if right.kind = .assignment then chain right else []
      | none => [] := by
  cases tree with
  | node kind text children =>
    rw [chain, chain_right_of]
    rfl

theorem chain_chained (tree : SyntaxTree) : Chained tree (chain tree) := by
  induction size : tree.size using Nat.strongRecOn generalizing tree with
  | _ count ih =>
    subst size
    rw [chain_of]
    cases found : tree.field? .right with
    | none => exact .last (by simp [found])
    | some right =>
      by_cases assigned : right.kind = .assignment
      · simp only [if_pos assigned]
        exact .next found assigned (ih right.size (field_size_lt found) right rfl)
      · simp only [if_neg assigned]
        refine .last fun other same => ?_
        rw [found] at same
        obtain rfl := Option.some.inj same
        exact assigned

def IsSelfMember (assignment : SyntaxTree) (name : String) : Prop :=
  ∃ left object member, assignment.field? .left = some left ∧ left.kind = .attribute ∧
    left.field? .object = some object ∧ object.kind = .identifier ∧ object.text = "self" ∧
    left.field? .attribute = some member ∧ member.text = name

inductive Sights (type : String) : List SyntaxTree → List Attribute → Prop where
  | nil : Sights type [] []
  | member {link : SyntaxTree} {links : List SyntaxTree} {name : String} {sights : List Attribute} :
      IsSelfMember link name → Sights type links sights →
      Sights type (link :: links) (⟨name, type⟩ :: sights)
  | other {link : SyntaxTree} {links : List SyntaxTree} {sights : List Attribute} :
      (∀ name, ¬ IsSelfMember link name) → Sights type links sights →
      Sights type (link :: links) sights

def Gives (assignment : SyntaxTree) (sights : List Attribute) : Prop :=
  ∃ links, Chained assignment links ∧ Sights (unparse (assignment.field? .declared)) links sights

theorem self_target_iff (assignment : SyntaxTree) (name : String) :
    selfTarget? assignment = some name ↔ IsSelfMember assignment name := by
  rw [selfTarget?, Option.bind_eq_bind, Option.bind_eq_some_iff]
  constructor
  · rintro ⟨left, target, told⟩
    by_cases dotted : left.kind = .attribute
    · rw [if_pos dotted, Option.bind_eq_some_iff] at told
      obtain ⟨object, owner, told⟩ := told
      by_cases self : (object.kind = .identifier && object.text = "self") = true
      · rw [if_pos self, Option.bind_eq_some_iff] at told
        obtain ⟨member, label, same⟩ := told
        rw [Bool.and_eq_true, decide_eq_true_eq, decide_eq_true_eq] at self
        exact ⟨left, object, member, target, dotted, owner, self.1, self.2, label,
          Option.some.inj same⟩
      · rw [if_neg self] at told
        cases told
    · rw [if_neg dotted] at told
      cases told
  · rintro ⟨left, object, member, target, dotted, owner, kind, text, label, rfl⟩
    refine ⟨left, target, ?_⟩
    simp [dotted, owner, kind, text, label]

theorem sights_of_links (type : String) (links : List SyntaxTree) :
    Sights type links
      (links.filterMap fun link => (selfTarget? link).map fun name => ⟨name, type⟩) := by
  induction links with
  | nil => exact .nil
  | cons link links ih =>
    cases target : selfTarget? link with
    | none =>
      rw [List.filterMap_cons_none (by rw [target, Option.map_none])]
      refine .other (fun name self => ?_) ih
      rw [← self_target_iff, target] at self
      cases self
    | some name =>
      rw [List.filterMap_cons_some (by rw [target, Option.map_some])]
      exact .member ((self_target_iff link name).mp target) ih

theorem method_sights_given (assignment : SyntaxTree) :
    Gives assignment (methodSights assignment) :=
  ⟨chain assignment, chain_chained assignment, sights_of_links _ _⟩

theorem places_of_outermost (tree : SyntaxTree) :
    ∃ places, places.Pairwise (List.Shortlex (· < ·)) ∧
      List.Forall₂ (OutermostAt tree) places (outermost [tree]) ∧
      ∀ place assignment, OutermostAt tree place assignment → place ∈ places := by
  obtain ⟨places, ascending, found, complete⟩ := outermost_in_order tree
  refine ⟨places, ascending, ?_, ?_⟩
  · rw [← List.forall₂_eq_eq_eq, List.forall₂_map_left_iff, List.forall₂_map_right_iff] at found
    exact found.imp fun place assignment => (outermost_at_iff place tree assignment).mp
  · intro place assignment met
    exact complete place
      (Option.isSome_iff_exists.mpr ⟨assignment, (outermost_at_iff place tree assignment).mpr met⟩)

-- The walk through a function ends, and what it has met by then are the assignments that no other
-- one stands above: each of them once, the upper first and those of one depth from left to right.
-- The sights are the members of `self` among the targets of each, with the type it declares.
theorem self_sights_in_level_order (function : SyntaxTree) :
    ∃ places assignments sights,
      places.Pairwise (List.Shortlex (· < ·)) ∧
      List.Forall₂ (OutermostAt function) places assignments ∧
      (∀ place assignment, OutermostAt function place assignment → place ∈ places) ∧
      (∃ rounds ≤ function.size, Walk.round^[rounds] ⟨[function], []⟩ = ⟨[], assignments⟩) ∧
      List.Forall₂ Gives assignments sights ∧ selfSights function = sights.flatten := by
  obtain ⟨places, ascending, found, complete⟩ := places_of_outermost function
  refine ⟨places, outermost [function], (outermost [function]).map methodSights, ascending, found,
    complete, walk_ends [function] [], ?_, rfl⟩
  rw [List.forall₂_map_right_iff, List.forall₂_same]
  exact fun assignment _ => method_sights_given assignment

end SourceDiagram.ObjectModel
