import SourceDiagram.ObjectModel.Session
import SourceDiagram.Proofs.ObjectModel.Bases
import SourceDiagram.Proofs.ObjectModel.LevelOrder
import SourceDiagram.Proofs.ObjectModel.Refusal
import SourceDiagram.Proofs.ObjectModel.Signatures

set_option autoImplicit false

namespace SourceDiagram.ObjectModel

open SourceDiagram.Model
open SourceDiagram.Syntax

def isLoose (child : Role × SyntaxTree) : Bool :=
  child.1 = .plain && child.2.kind.isExtra

def bound (children : List (Role × SyntaxTree)) : List (Role × SyntaxTree) :=
  children.filter fun child => !isLoose child

-- Whether two trees are the same but for loose children at any depth. Where these stand the text of
-- a phrase differs, so only the texts are compared that a tree is told by.
mutual
def isAlike : SyntaxTree → SyntaxTree → Bool
  | .node kind text children, other =>
    other.kind = kind && textsOf other = textsOf (.node kind text children) &&
      areAlike children (bound other.children)
def areAlike : List (Role × SyntaxTree) → List (Role × SyntaxTree) → Bool
  | [], others => others.isEmpty
  | (role, tree) :: rest, others =>
    if isLoose (role, tree) then areAlike rest others
    else
      match others with
      | [] => false
      | (place, other) :: others => place = role && isAlike tree other && areAlike rest others
end

def Alike (tree other : SyntaxTree) : Prop :=
  isAlike tree other = true

def InRole (related : SyntaxTree → SyntaxTree → Prop) (child other : Role × SyntaxTree) : Prop :=
  other.1 = child.1 ∧ related child.2 other.2

theorem are_alike_iff (children others : List (Role × SyntaxTree)) :
    areAlike children others = true ↔ List.Forall₂ (InRole Alike) (bound children) others := by
  induction children generalizing others with
  | nil => simp [areAlike, bound]
  | cons child children ih =>
    obtain ⟨role, tree⟩ := child
    rw [bound, List.filter_cons]
    by_cases loose : isLoose (role, tree) = true
    · rw [if_neg (by simp [loose]), areAlike.eq_def]
      simp only [if_pos loose]
      exact ih others
    · rw [if_pos (by simpa using loose)]
      cases others with
      | nil => simp [areAlike, loose]
      | cons other others =>
        obtain ⟨place, other⟩ := other
        rw [areAlike, if_neg loose, List.forall₂_cons, Bool.and_eq_true, Bool.and_eq_true,
          decide_eq_true_eq, ih]
        rfl

theorem alike_iff (tree other : SyntaxTree) :
    Alike tree other ↔ other.kind = tree.kind ∧ textsOf other = textsOf tree ∧
      List.Forall₂ (InRole Alike) (bound tree.children) (bound other.children) := by
  cases tree with
  | node kind text children =>
    rw [Alike, isAlike, Bool.and_eq_true, Bool.and_eq_true, decide_eq_true_eq, decide_eq_true_eq,
      are_alike_iff, and_assoc]
    rfl

theorem parts_of_bound (tree : SyntaxTree) :
    tree.parts = ((bound tree.children).map Prod.snd).filter SyntaxTree.isPart := by
  rw [SyntaxTree.parts, bound, List.filter_map, List.filter_map, List.filter_filter]
  congr 1
  refine List.filter_congr fun child _ => ?_
  -- What is extra is no part, loose or not.
  cases extra : child.2.kind.isExtra <;> simp [SyntaxTree.isPart, isLoose, extra]

theorem fields_of_bound (tree : SyntaxTree) {role : Role} (named : role ≠ .plain) :
    tree.fields role = ((bound tree.children).filter fun child => child.1 = role).map Prod.snd := by
  rw [SyntaxTree.fields, bound, List.filter_filter]
  congr 1
  refine List.filter_congr fun child _ => ?_
  by_cases same : child.1 = role
  · simp [isLoose, same, named]
  · simp [same]

section

variable {related : SyntaxTree → SyntaxTree → Prop} {tree other : SyntaxTree}

theorem fields_related
    (children : List.Forall₂ (InRole related) (bound tree.children) (bound other.children))
    (role : Role) (named : role ≠ .plain) :
    List.Forall₂ related (tree.fields role) (other.fields role) := by
  rw [fields_of_bound tree named, fields_of_bound other named]
  have filtered := filter_related (p := fun child => child.1 = role)
    (q := fun child => child.1 = role) children fun _ _ same => by rw [same.1]
  exact List.rel_map (fun _ _ same => same.2) filtered

theorem sized_children {others : List (Role × SyntaxTree)}
    (children : List.Forall₂ (InRole related) (bound tree.children) others) :
    List.Forall₂ (fun child other => child.2.size < tree.size ∧ InRole related child other)
      (bound tree.children) others :=
  (List.forall₂_and_left _ _).mpr
    ⟨fun _ member => size_lt_of_child (List.mem_filter.mp member).1, children⟩

theorem parts_related
    (children : List.Forall₂ (InRole related) (bound tree.children) (bound other.children))
    (kinds : ∀ tree other, related tree other → other.kind = tree.kind) :
    List.Forall₂ related tree.parts other.parts := by
  rw [parts_of_bound tree, parts_of_bound other]
  have placed : List.Forall₂ related ((bound tree.children).map Prod.snd)
      ((bound other.children).map Prod.snd) := List.rel_map (fun _ _ same => same.2) children
  exact filter_related placed fun tree other same => is_part_congr (kinds tree other same)

end

namespace Alike

variable {tree other : SyntaxTree}

theorem kind (alike : Alike tree other) : other.kind = tree.kind :=
  ((alike_iff tree other).mp alike).1

theorem texts (alike : Alike tree other) : textsOf other = textsOf tree :=
  ((alike_iff tree other).mp alike).2.1

theorem parts (alike : Alike tree other) : List.Forall₂ Alike tree.parts other.parts :=
  parts_related ((alike_iff tree other).mp alike).2.2 fun _ _ => kind

theorem field (alike : Alike tree other) (role : Role) (named : role ≠ .plain) :
    Option.Rel Alike (tree.field? role) (other.field? role) := by
  rw [field_of_fields, field_of_fields]
  exact head_related (fields_related ((alike_iff tree other).mp alike).2.2 role named)

@[elab_as_elim] theorem inductively {motive : SyntaxTree → SyntaxTree → Prop}
    (alike : Alike tree other)
    (step : ∀ tree other, Alike tree other →
      List.Forall₂ (InRole fun tree other => Alike tree other ∧ motive tree other)
        (bound tree.children) (bound other.children) → motive tree other) :
    motive tree other := by
  induction size : tree.size using Nat.strongRecOn generalizing tree other with
  | _ count ih =>
    subst size
    refine step tree other alike ?_
    obtain ⟨-, -, children⟩ := (alike_iff tree other).mp alike
    exact (sized_children children).imp fun child other ⟨less, role, alike⟩ =>
      ⟨role, alike, ih _ less alike rfl⟩

end Alike

mutual
def withoutLoose : SyntaxTree → SyntaxTree
  | .node kind text children => .node kind text (allWithoutLoose children)
def allWithoutLoose : List (Role × SyntaxTree) → List (Role × SyntaxTree)
  | [] => []
  | (role, tree) :: rest =>
    if isLoose (role, tree) then allWithoutLoose rest
    else (role, withoutLoose tree) :: allWithoutLoose rest
end

theorem all_without_loose_eq (children : List (Role × SyntaxTree)) :
    allWithoutLoose children =
      (bound children).map fun child => (child.1, withoutLoose child.2) := by
  induction children with
  | nil => rfl
  | cons child children ih =>
    obtain ⟨role, tree⟩ := child
    rw [allWithoutLoose, ih, bound, bound, List.filter_cons]
    by_cases loose : isLoose (role, tree) = true
    · rw [if_pos loose, if_neg (by simp [loose])]
    · rw [if_neg loose, if_pos (by simpa using loose), List.map_cons]

theorem without_loose_eq (tree : SyntaxTree) :
    withoutLoose tree = .node tree.kind tree.text
      ((bound tree.children).map fun child => (child.1, withoutLoose child.2)) := by
  cases tree
  rw [withoutLoose, all_without_loose_eq]
  rfl

section

variable {tree other : SyntaxTree}

theorem same_without_loose (same : withoutLoose other = withoutLoose tree) :
    other.kind = tree.kind ∧ other.text = tree.text ∧
      List.Forall₂ (InRole fun tree other => withoutLoose other = withoutLoose tree)
        (bound tree.children) (bound other.children) := by
  rw [without_loose_eq, without_loose_eq tree] at same
  obtain ⟨kind, text, children⟩ := SyntaxTree.node.inj same
  have each := List.forall₂_eq_eq_eq ▸ children.symm
  rw [List.forall₂_map_left_iff, List.forall₂_map_right_iff] at each
  refine ⟨kind, text, each.imp fun child other same => ?_⟩
  obtain ⟨role, tree⟩ := Prod.mk.inj same
  exact ⟨role.symm, tree.symm⟩

theorem texts_without_loose (same : withoutLoose other = withoutLoose tree) :
    textsOf other = textsOf tree := by
  obtain ⟨kind, text, children⟩ := same_without_loose same
  have texts : ∀ tree other, withoutLoose other = withoutLoose tree → other.text = tree.text :=
    fun _ _ same => (same_without_loose same).2.1
  have parts : other.parts.map SyntaxTree.text = tree.parts.map SyntaxTree.text :=
    map_right (parts_related children fun _ _ same => (same_without_loose same).1) texts
  have fields : ∀ role, role ≠ .plain →
      (other.field? role).map SyntaxTree.text = (tree.field? role).map SyntaxTree.text := by
    intro role named
    rw [field_of_fields, field_of_fields]
    exact map_related (head_related (fields_related children role named)) texts
  have target : (other.parts.head?.filter fun part => !isStarred part).map SyntaxTree.text =
      (tree.parts.head?.filter fun part => !isStarred part).map SyntaxTree.text := by
    obtain ⟨none, without⟩ | ⟨first, changed, found, kept, same⟩ := none_or_related
      (head_related (parts_related children fun _ _ same => (same_without_loose same).1))
    · rw [none, without]
    · obtain ⟨kind, text, -⟩ := same_without_loose same
      rw [found, kept, Option.filter_some, Option.filter_some, isStarred, isStarred, kind]
      split
      · exact congrArg some text
      · rfl
  rw [textsOf, textsOf, isStarred, isStarred, kind, text, target, ← List.getElem?_map,
    ← List.getElem?_map, ← List.head?_map, ← List.head?_map, parts, fields .name (by decide),
    fields .attribute (by decide), fields .operator (by decide)]

theorem alike_of_without_loose (same : withoutLoose other = withoutLoose tree) :
    Alike tree other := by
  induction size : tree.size using Nat.strongRecOn generalizing tree other with
  | _ count ih =>
    subst size
    obtain ⟨kind, -, children⟩ := same_without_loose same
    refine (alike_iff tree other).mpr ⟨kind, texts_without_loose same, ?_⟩
    exact (sized_children children).imp fun child other ⟨less, role, same⟩ =>
      ⟨role, ih _ less same rfl⟩

end

namespace Alike

variable {tree other : SyntaxTree}

theorem own_text (alike : Alike tree other) (named : tree.kind = .identifier) :
    other.text = tree.text := by
  have same := congrArg Texts.own alike.texts
  simpa [textsOf, alike.kind, named] using same

theorem name_text (alike : Alike tree other) :
    (other.field? .name).map SyntaxTree.text = (tree.field? .name).map SyntaxTree.text :=
  congrArg Texts.name alike.texts

theorem label_text (alike : Alike tree other) (dotted : tree.kind = .attribute) :
    (other.field? .attribute).map SyntaxTree.text =
      (tree.field? .attribute).map SyntaxTree.text := by
  have same := congrArg Texts.label alike.texts
  simpa [textsOf, alike.kind, dotted] using same

theorem starred (alike : Alike tree other) : isStarred other = isStarred tree := by
  rw [isStarred, isStarred, alike.kind]

theorem target_text (alike : Alike tree other) (typed : tree.kind = .typedParameter) :
    (other.parts.head?.filter fun part => !isStarred part).map SyntaxTree.text =
      (tree.parts.head?.filter fun part => !isStarred part).map SyntaxTree.text := by
  have same := congrArg Texts.target alike.texts
  simpa [textsOf, isStarred, alike.kind, typed] using same

theorem told (alike : Alike tree other) :
    Expr.ofTree other = Expr.ofTree tree ∧ itemsOf other = itemsOf tree := by
  refine inductively alike fun tree other alike children => ?_
  have parts := parts_related children fun _ _ same => same.1.kind
  have items : itemsOf other = itemsOf tree := map_right parts fun _ _ same => same.2.1
  refine ⟨MadeAlike.expr ⟨alike.kind, alike.texts, items, ?_, ?_⟩, items⟩
  · exact fun role named => map_right (fields_related children role named) fun _ _ same => same.2.1
  · intro _
    rw [List.map_tail, List.map_tail, map_right parts fun _ _ same => same.2.2]

theorem base (alike : Alike tree other) : baseName? other = baseName? tree := by
  rw [base_name_of, base_name_of tree, alike.told.1]

theorem unparsed {type declared : Option SyntaxTree} (alike : Option.Rel Alike type declared) :
    unparse declared = unparse type :=
  unparse_congr (map_related alike fun _ _ same => same.told.1)

theorem call_like (alike : Alike tree other) :
    isCallLike other.children = isCallLike tree.children := by
  rw [isCallLike, isCallLike, parts_of_children, parts_of_children]
  have parts := alike.parts
  generalize tree.parts = entries at parts ⊢
  generalize other.parts = others at parts ⊢
  cases parts with
  | nil => rfl
  | cons first rest =>
    cases rest with
    | nil => simp only [first.kind]
    | cons _ _ => rfl

theorem judged_kind (alike : Alike tree other) : (judged other).kind = (judged tree).kind := by
  rw [judged, judged, alike.kind, List.headD_eq_head?_getD, List.headD_eq_head?_getD]
  split
  · obtain ⟨none, without⟩ | ⟨first, changed, found, kept, same⟩ :=
      none_or_related (head_related alike.parts)
    · rw [none, without]
      exact alike.kind
    · rw [found, kept]
      exact same.kind
  · exact alike.kind

theorem required_after_default {entries others : List SyntaxTree}
    (alike : List.Forall₂ Alike entries others) (defaulted : Bool) :
    requiredAfterDefault defaulted others = requiredAfterDefault defaulted entries := by
  induction alike generalizing defaulted with
  | nil => rfl
  | cons first _ ih =>
    rw [requiredAfterDefault, requiredAfterDefault, first.judged_kind]
    split <;> simp only [ih]

theorem own_refused (alike : Alike tree other) :
    isRefused other.kind other.children = isRefused tree.kind tree.children := by
  unfold isRefused
  rw [alike.kind, alike.call_like, parts_of_children, parts_of_children,
    required_after_default alike.parts]

theorem refused (alike : Alike tree other) : hasRefused other = hasRefused tree := by
  refine inductively alike fun tree other alike children => ?_
  have parts := parts_related children fun _ _ same => same.1.kind
  rw [has_refused_eq, has_refused_eq tree, alike.own_refused,
    any_right parts fun _ _ same => same.2]

theorem links (alike : Alike tree other) : List.Forall₂ Alike (chain tree) (chain other) := by
  refine inductively alike fun tree other alike children => ?_
  rw [chain_of, chain_of other, field_of_fields, field_of_fields]
  refine .cons alike ?_
  obtain ⟨none, without⟩ | ⟨right, changed, found, kept, same, rest⟩ :=
    none_or_related (head_related (fields_related children .right (by decide)))
  · rw [none, without]
    exact .nil
  · rw [found, kept]
    simp only [same.kind]
    split
    · exact rest
    · exact .nil

theorem plain_target (alike : Alike tree other) : plainTarget? other = plainTarget? tree := by
  refine bind_related (alike.field .left (by decide)) fun left changed same => ?_
  rw [same.kind]
  split
  case isTrue named => rw [same.own_text named]
  case isFalse => rfl

theorem self_target (alike : Alike tree other) : selfTarget? other = selfTarget? tree := by
  refine bind_related (alike.field .left (by decide)) fun left changed same => ?_
  rw [same.kind]
  split
  case isFalse => rfl
  case isTrue dotted =>
    refine bind_related (same.field .object (by decide)) fun object changed inside => ?_
    have self : (changed.kind = .identifier ∧ changed.text = "self") ↔
        (object.kind = .identifier ∧ object.text = "self") := by
      rw [inside.kind]
      exact and_congr_right fun named => by rw [inside.own_text named]
    have label := same.label_text dotted
    simp only [Bool.and_eq_true, decide_eq_true_eq, self]
    split
    · rw [Option.map_eq_bind, Option.map_eq_bind] at label
      exact label
    · rfl

theorem class_sights (alike : Alike tree other) : classSights other = classSights tree := by
  rw [classSights, classSights, alike.plain_target]
  obtain ⟨none, without⟩ | ⟨type, changed, found, kept, same⟩ :=
    none_or_related (alike.field .declared (by decide))
  · rw [none, without]
    exact filter_map_related alike.links fun _ _ link => by rw [link.plain_target]
  · rw [found, kept]
    simp only [unparsed (.some same)]

theorem method_sights (alike : Alike tree other) : methodSights other = methodSights tree := by
  rw [methodSights, methodSights, unparsed (alike.field .declared (by decide))]
  exact filter_map_related alike.links fun _ _ link => by rw [link.self_target]

theorem outermost_related {queue others : List SyntaxTree}
    (alike : List.Forall₂ Alike queue others) :
    List.Forall₂ Alike (outermost queue) (outermost others) := by
  induction queue using outermost.induct generalizing others with
  | case1 =>
    cases alike
    rw [outermost]
    exact .nil
  | case2 tree queue assigned ih =>
    cases alike with
    | cons first later =>
      rw [outermost, outermost, first.kind, if_pos assigned, if_pos assigned]
      exact .cons first (ih later)
  | case3 tree queue plain ih =>
    cases alike with
    | cons first later =>
      rw [outermost, outermost, first.kind, if_neg plain, if_neg plain]
      exact ih (List.rel_append later first.parts)

theorem self_sights (alike : Alike tree other) : selfSights other = selfSights tree :=
  flat_map_right (outermost_related (.cons alike .nil)) fun _ _ => method_sights

theorem of_kind {trees others : List SyntaxTree} (alike : List.Forall₂ Alike trees others)
    (kind : Kind) :
    List.Forall₂ Alike (trees.filter fun tree => tree.kind = kind)
      (others.filter fun tree => tree.kind = kind) :=
  filter_related alike fun _ _ same => by rw [same.kind]

theorem body_sights {body others : List SyntaxTree} (alike : List.Forall₂ Alike body others) :
    bodySights others = bodySights body :=
  flat_map_right (of_kind alike .expressionStatement) fun _ _ statement =>
    flat_map_right (of_kind statement.parts .assignment) fun _ _ => class_sights

theorem decorator_name (alike : Alike tree other) : decoratorName other = decoratorName tree := by
  rw [decoratorName, decoratorName, alike.kind]
  split
  case isTrue named => exact alike.own_text named
  case isFalse =>
    split
    case isFalse => exact unparsed (.some alike)
    case isTrue dotted =>
      have label := alike.label_text dotted
      obtain ⟨none, without⟩ | ⟨member, changed, found, kept, -⟩ :=
        none_or_related (alike.field .attribute (by decide))
      · rw [none, without]
      · rw [found, kept] at label ⊢
        exact Option.some.inj label

theorem method_kind {decorators others : List SyntaxTree}
    (alike : List.Forall₂ Alike decorators others) : methodKind others = methodKind decorators := by
  have names := filter_map_related alike fun _ _ decorator =>
    map_related (head_related decorator.parts) fun _ _ => decorator_name
  rw [methodKind, methodKind, names]

theorem parameter_names {target changed : Option SyntaxTree}
    (alike : Option.Rel Alike target changed)
    (texts : (changed.filter fun tree => !isStarred tree).map SyntaxTree.text =
      (target.filter fun tree => !isStarred tree).map SyntaxTree.text) :
    changed.map parameterName = target.map parameterName := by
  cases alike with
  | none => rfl
  | some same =>
    refine congrArg some (parameter_name_congr same.kind same.texts fun plain => ?_)
    simpa [Option.filter_some, same.starred, plain] using texts

theorem target_name (alike : Alike tree other) (typed : tree.kind = .typedParameter) :
    other.parts.head?.map parameterName = tree.parts.head?.map parameterName :=
  parameter_names (head_related alike.parts) (alike.target_text typed)

theorem field_name (alike : Alike tree other) :
    (other.field? .name).map parameterName = (tree.field? .name).map parameterName := by
  have named := alike.field .name (by decide)
  refine parameter_names named ?_
  obtain ⟨none, without⟩ | ⟨name, changed, found, kept, same⟩ := none_or_related named
  · rw [none, without]
  · have text := alike.name_text
    rw [found, kept] at text ⊢
    rw [Option.filter_some, Option.filter_some, same.starred]
    split
    · exact text
    · rfl

theorem parameter (alike : Alike tree other) : parameter? other = parameter? tree :=
  parameter_congr alike.kind alike.texts alike.target_name alike.field_name
    (unparsed (alike.field .declared (by decide)))

theorem entries (alike : Alike tree other) :
    List.Forall₂ Alike (entriesOf tree) (entriesOf other) := by
  rw [entriesOf, entriesOf]
  obtain ⟨none, without⟩ | ⟨parameters, changed, found, kept, same⟩ :=
    none_or_related (alike.field .parameters (by decide))
  · rw [none, without]
    exact .nil
  · rw [found, kept]
    exact same.parts

theorem method (alike : Alike tree other) {decorators others : List SyntaxTree}
    (marks : List.Forall₂ Alike decorators others) :
    methodOf other others = methodOf tree decorators := by
  rw [method_of_entries, method_of_entries tree, alike.name_text, method_kind marks,
    filter_map_related alike.entries fun _ _ => parameter,
    unparsed (alike.field .returnType (by decide))]

theorem definition (alike : Alike tree other) (kind : Kind) :
    Option.Rel Alike (definition? kind tree) (definition? kind other) := by
  rw [definition?, definition?, alike.kind]
  split
  · exact .some alike
  · split
    · obtain ⟨none, without⟩ | ⟨inside, changed, found, kept, same⟩ :=
        none_or_related (alike.field .definition (by decide))
      · rw [none, without]
        exact .none
      · rw [found, kept, Option.filter_some, Option.filter_some, same.kind]
        split
        · exact .some same
        · exact .none
    · exact .none

theorem decorators (alike : Alike tree other) :
    List.Forall₂ Alike (decoratorsOf tree) (decoratorsOf other) := by
  rw [decoratorsOf, decoratorsOf, alike.kind]
  split
  · exact of_kind alike.parts .decorator
  · exact .nil

theorem functions {body others : List SyntaxTree} (alike : List.Forall₂ Alike body others) :
    List.Forall₂ (fun function other => Alike function.1 other.1 ∧
      List.Forall₂ Alike function.2 other.2) (functionsOf body) (functionsOf others) := by
  refine List.rel_filterMap (fun statement changed same => ?_) alike
  obtain ⟨none, without⟩ | ⟨function, other, found, kept, inside⟩ :=
    none_or_related (same.definition .functionDefinition)
  · rw [none, without]
    exact .none
  · rw [found, kept]
    exact .some ⟨inside, same.decorators⟩

theorem sights {body others : List SyntaxTree} (alike : List.Forall₂ Alike body others) :
    sightsOf others = sightsOf body := by
  rw [sightsOf, sightsOf, body_sights alike]
  exact congrArg _ (flat_map_right (functions alike) fun _ _ function => function.1.self_sights)

theorem bases (alike : Alike tree other) : basesOf other = basesOf tree := by
  rw [basesOf, basesOf]
  obtain ⟨none, without⟩ | ⟨list, changed, found, kept, same⟩ :=
    none_or_related (alike.field .superclasses (by decide))
  · rw [none, without]
  · rw [found, kept]
    exact filter_map_related same.parts fun _ _ => base

theorem described (alike : Alike tree other) : describe? other = describe? tree := by
  have text := alike.name_text
  rw [describe?, describe?]
  obtain ⟨none, without⟩ | ⟨name, changed, found, kept, -⟩ :=
    none_or_related (alike.field .name (by decide))
  · rw [none, without]
    rfl
  · rw [found, kept] at text ⊢
    simp only [Option.bind_eq_bind, Option.bind_some]
    refine bind_related (alike.field .body (by decide)) fun body others same => ?_
    rw [Option.some.inj text, alike.bases, sights same.parts,
      map_right (functions same.parts) fun _ _ function => function.1.method function.2]

theorem classes (alike : Alike tree other) : classesOf other = classesOf tree :=
  filter_map_related alike.parts fun _ _ statement =>
    bind_related (statement.definition .classDefinition) fun _ _ => described

end Alike

-- Trees that are the same without comments and joined lines are alike, and so are trees where these
-- also change the texts around them. A module is refused or not as one that is alike to it. Both
-- declare the same classes with the same bases, attributes and methods, leave the same classes known
-- and give the same answer.
theorem extras_untold :
    (∀ tree other, withoutLoose other = withoutLoose tree → Alike tree other) ∧
    (∀ module other, Alike module other →
      hasRefused other = hasRefused module ∧ classesOf other = classesOf module ∧
      (∀ known, readModule known other = readModule known module) ∧
      ∀ text commented, parse? text = some module → parse? commented = some other →
        ∀ known, interpret known commented = interpret known text) := by
  refine ⟨fun tree other => alike_of_without_loose, fun module other alike => ?_⟩
  have reading : ∀ known, readModule known other = readModule known module := by
    intro known
    rw [readModule, readModule, alike.classes]
  refine ⟨alike.refused, alike.classes, reading, fun text commented plain extra known => ?_⟩
  rw [interpret, interpret, accepted?, accepted?, plain, extra, Option.filter_some,
    Option.filter_some, alike.refused]
  cases hasRefused module with
  | true => rfl
  | false =>
    simp only [Bool.not_false, if_true]
    rw [reading]

def plainBox : String :=
  "class Box(Item):\n    def fill(self, *items: Item): pass\n"

def commentedBox : String :=
  "class Box(  # open\n        Item):\n    def fill(self, *  # all\n        items: Item): pass\n"

theorem comments_in_box_untold :
    ((parse? plainBox).bind fun module =>
      (parse? commentedBox).map fun other => (isAlike module other, classesOf module)) =
        some (true, [⟨"Box", ["Item"], [], [⟨"fill", [⟨"*items", "Item"⟩], "", .instanceMethod⟩]⟩]) ∧
    interpret [] commentedBox = interpret [] plainBox := by
  have parsed : ((parse? plainBox).bind fun module =>
      (parse? commentedBox).map fun other => (isAlike module other, classesOf module)) =
        some (true, [⟨"Box", ["Item"], [], [⟨"fill", [⟨"*items", "Item"⟩], "", .instanceMethod⟩]⟩]) := by
    decide +kernel
  refine ⟨parsed, ?_⟩
  obtain ⟨module, plain, found⟩ := Option.bind_eq_some_iff.mp parsed
  obtain ⟨other, commented, alike⟩ := Option.map_eq_some_iff.mp found
  obtain ⟨-, -, -, read⟩ := extras_untold.2 module other (Prod.mk.inj alike).1
  exact read plainBox commentedBox plain commented []

end SourceDiagram.ObjectModel
