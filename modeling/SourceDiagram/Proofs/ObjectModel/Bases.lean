import SourceDiagram.ObjectModel.Session
import SourceDiagram.Proofs.Model.Sights
import SourceDiagram.Proofs.ObjectModel.TypeText
import SourceDiagram.Proofs.Relation
import SourceDiagram.Syntax.Tree

set_option autoImplicit false

namespace SourceDiagram.ObjectModel

open SourceDiagram.Model
open SourceDiagram.Syntax

-- Where the spine goes on: what stands in parentheses, has the member or is indexed.
def holder? (tree : SyntaxTree) : Option SyntaxTree :=
  match tree.kind with
  | .typeNode => tree.parts.head?
  | .parenthesizedExpression => tree.parts.head?
  | .attribute => if (tree.field? .attribute).isSome then tree.field? .object else none
  | .subscript => tree.field? .value
  | .memberType => if tree.parts.length = 2 then tree.parts.head? else none
  | .genericType => if tree.parts.length = 2 then tree.parts.head? else none
  | _ => none

def isEnclosing (kind : Kind) : Bool :=
  kind == .typeNode || kind == .parenthesizedExpression

theorem holder_smaller {tree inner : SyntaxTree} (holder : holder? tree = some inner) :
    inner.size < tree.size := by
  have first (head : tree.parts.head? = some inner) : inner.size < tree.size :=
    part_size_lt (List.mem_of_head? head)
  unfold holder? at holder
  split at holder
  case h_1 => exact first holder
  case h_2 => exact first holder
  case h_3 =>
    split at holder
    · exact field_size_lt holder
    · cases holder
  case h_4 => exact field_size_lt holder
  case h_5 =>
    split at holder
    · exact first holder
    · cases holder
  case h_6 =>
    split at holder
    · exact first holder
    · cases holder
  case h_7 => cases holder

def spine (tree : SyntaxTree) : List SyntaxTree :=
  match _next : holder? tree with
  | some inner => tree :: spine inner
  | none => [tree]
termination_by tree.size
decreasing_by exact holder_smaller _next

def root (tree : SyntaxTree) : SyntaxTree :=
  (spine tree).getLast?.getD tree

def isAccess (tree : SyntaxTree) : Bool :=
  !isEnclosing tree.kind && (holder? tree).isSome

-- A spine that ends in a name of the source.
def IsGrounded (tree : SyntaxTree) : Prop :=
  (root tree).kind = .identifier

def IsAccessed (tree : SyntaxTree) : Prop :=
  ∃ link ∈ spine tree, isAccess link = true

instance (tree : SyntaxTree) : Decidable (IsGrounded tree) :=
  inferInstanceAs (Decidable ((root tree).kind = .identifier))

instance (tree : SyntaxTree) : Decidable (IsAccessed tree) :=
  inferInstanceAs (Decidable (∃ link ∈ spine tree, isAccess link = true))

section

variable {tree inner : SyntaxTree}

theorem spine_of_end (last : holder? tree = none) : spine tree = [tree] := by
  rw [spine]
  split
  · simp_all
  · rfl

theorem spine_of_holder (holder : holder? tree = some inner) :
    spine tree = tree :: spine inner := by
  rw [spine]
  split
  · simp_all
  · simp_all

theorem root_of_end (last : holder? tree = none) : root tree = tree := by
  rw [root, spine_of_end last]
  rfl

theorem spine_ne_nil (tree : SyntaxTree) : spine tree ≠ [] := by
  cases holder : holder? tree with
  | none => simp [spine_of_end holder]
  | some inner => simp [spine_of_holder holder]

theorem root_of_holder (holder : holder? tree = some inner) : root tree = root inner := by
  rw [root, root, spine_of_holder holder, List.getLast?_cons,
    List.getLast?_eq_some_getLast (spine_ne_nil inner)]
  rfl

theorem accessed_of_end (last : holder? tree = none) : ¬ IsAccessed tree := by
  rintro ⟨link, member, access⟩
  rw [spine_of_end last, List.mem_singleton] at member
  simp [isAccess, member, last] at access

theorem accessed_of_holder (holder : holder? tree = some inner) :
    IsAccessed tree ↔ isEnclosing tree.kind = false ∨ IsAccessed inner := by
  simp [IsAccessed, spine_of_holder holder, isAccess, holder]

end

theorem enclosed_told {tree inner : SyntaxTree} (holder : holder? tree = some inner)
    (enclosing : isEnclosing tree.kind = true) : Expr.ofTree tree = Expr.ofTree inner := by
  cases tree with
  | node kind text children =>
    have parts := lowered_all_parts kind text children
    rw [SyntaxTree.kind_node, isEnclosing, Bool.or_eq_true, beq_iff_eq, beq_iff_eq] at enclosing
    have first : (SyntaxTree.node kind text children).parts.head? = some inner := by
      rcases enclosing with rfl | rfl <;> exact holder
    obtain ⟨rest, split⟩ := List.head?_eq_some_iff.mp first
    rw [split, List.map_cons] at parts
    rw [of_tree_node]
    rcases enclosing with rfl | rfl <;> rw [Expr.assemble, parts] <;> rfl

theorem access_told {tree inner : SyntaxTree} (holder : holder? tree = some inner)
    (access : isEnclosing tree.kind = false) :
    (∃ label, Expr.ofTree tree = .member (Expr.ofTree inner) label) ∨
      ∃ arguments, Expr.ofTree tree = .subscript (Expr.ofTree inner) arguments := by
  cases tree with
  | node kind text children =>
    have parts := lowered_all_parts kind text children
    have field := lowered_field kind text children
    rw [of_tree_node]
    unfold holder? at holder
    rw [SyntaxTree.kind_node] at holder access
    split at holder
    case h_1 => cases access
    case h_2 => cases access
    case h_3 =>
      split at holder
      case isTrue labelled =>
        obtain ⟨label, found⟩ := Option.isSome_iff_exists.mp labelled
        rw [Expr.assemble, field, field, holder, found]
        exact .inl ⟨_, rfl⟩
      case isFalse => cases holder
    case h_4 =>
      rw [Expr.assemble, field, holder]
      exact .inr ⟨_, rfl⟩
    case h_5 =>
      split at holder
      case isTrue both =>
        obtain ⟨value, label, pair⟩ := List.length_eq_two.mp both
        rw [pair, List.head?_cons, Option.some.injEq] at holder
        rw [Expr.assemble, parts, pair, holder]
        exact .inl ⟨_, rfl⟩
      case isFalse => cases holder
    case h_6 =>
      split at holder
      case isTrue both =>
        obtain ⟨value, arguments, pair⟩ := List.length_eq_two.mp both
        rw [pair, List.head?_cons, Option.some.injEq] at holder
        rw [Expr.assemble, parts, pair, holder]
        exact .inr ⟨_, rfl⟩
      case isFalse => cases holder
    case h_7 => cases holder

def Expr.isReference : Expr → Bool
  | .name _ => true
  | .member _ _ => true
  | .subscript _ _ => true
  | _ => false

theorem base_name_of (tree : SyntaxTree) :
    baseName? tree =
      if (Expr.ofTree tree).isReference then some (Expr.ofTree tree).text else none := by
  rw [baseName?]
  cases Expr.ofTree tree <;> rfl

-- Where a spine ends, a name is the only tree in a form that a base is recorded in.
theorem end_told {tree : SyntaxTree} (last : holder? tree = none) :
    (Expr.ofTree tree).isReference = true ↔ tree.kind = .identifier := by
  cases tree with
  | node kind text children =>
    have parts := lowered_all_parts kind text children
    have field := lowered_field kind text children
    rw [of_tree_node]
    unfold holder? at last
    rw [SyntaxTree.kind_node] at last ⊢
    split at last
    case h_1 =>
      rw [List.head?_eq_none_iff] at last
      simp [Expr.assemble, Expr.assemble.inner, parts, last, Expr.isReference]
    case h_2 =>
      rw [List.head?_eq_none_iff] at last
      simp [Expr.assemble, Expr.assemble.inner, parts, last, Expr.isReference]
    case h_3 =>
      split at last
      case isTrue => simp [Expr.assemble, field, last, Expr.isReference]
      case isFalse unlabelled =>
        rw [Option.not_isSome_iff_eq_none] at unlabelled
        simp [Expr.assemble, field, unlabelled, Expr.isReference]
    case h_4 => simp [Expr.assemble, field, last, Expr.isReference]
    case h_5 =>
      split at last
      case isTrue both => simp_all [List.head?_eq_none_iff]
      case isFalse apart =>
        rw [Expr.assemble, parts]
        split
        case h_1 pair => exact absurd (by simpa using congrArg List.length pair) apart
        case h_2 => simp [Expr.isReference]
    case h_6 =>
      split at last
      case isTrue both => simp_all [List.head?_eq_none_iff]
      case isFalse apart =>
        rw [Expr.assemble, parts]
        split
        case h_1 pair => exact absurd (by simpa using congrArg List.length pair) apart
        case h_2 => simp [Expr.isReference]
    case h_7 =>
      unfold Expr.assemble
      split
      -- Alternatives are told as such or by their kind, and neither is a base.
      case h_19 =>
        dsimp only
        split <;> simp [Expr.isReference]
      case h_20 =>
        split
        · split <;> simp [Expr.isReference]
        · simp [Expr.isReference]
      all_goals simp_all [Expr.isReference]

theorem text_from_root (tree : SyntaxTree) :
    ∃ more, (Expr.ofTree tree).text = (Expr.ofTree (root tree)).text ++ more := by
  induction tree using spine.induct with
  | case1 tree inner holder ih =>
    obtain ⟨more, text⟩ := ih
    rw [root_of_holder holder]
    by_cases enclosing : isEnclosing tree.kind = true
    · exact ⟨more, by rw [enclosed_told holder enclosing, text]⟩
    · rcases access_told holder (Bool.eq_false_of_not_eq_true enclosing) with
        ⟨label, told⟩ | ⟨arguments, told⟩
      · exact ⟨more ++ "." ++ label, by rw [told, Expr.text, text]; simp [String.append_assoc]⟩
      · refine ⟨more ++ "[" ++ joined arguments ++ "]", ?_⟩
        rw [told, Expr.text, text]
        simp [String.append_assoc]
  | case2 tree last => exact ⟨"", by rw [root_of_end last, String.append_empty]⟩

theorem grounded_text {tree : SyntaxTree} (grounded : IsGrounded tree) :
    ∃ more, (Expr.ofTree tree).text = (root tree).text ++ more := by
  obtain ⟨more, text⟩ := text_from_root tree
  refine ⟨more, text.trans ?_⟩
  have named : Expr.ofTree (root tree) = .name (root tree).text := by
    rw [IsGrounded] at grounded
    generalize root tree = last at grounded
    cases last with
    | node kind text children =>
      rw [SyntaxTree.kind_node] at grounded
      rw [of_tree_node, grounded]
      rfl
  rw [named]
  rfl

theorem reference_iff (tree : SyntaxTree) :
    (Expr.ofTree tree).isReference = true ↔ IsGrounded tree ∨ IsAccessed tree := by
  induction tree using spine.induct with
  | case1 tree inner holder ih =>
    rw [IsGrounded, root_of_holder holder, accessed_of_holder holder]
    by_cases enclosing : isEnclosing tree.kind = true
    · rw [enclosed_told holder enclosing, ih, IsGrounded]
      simp [enclosing]
    · have access := Bool.eq_false_of_not_eq_true enclosing
      rcases access_told holder access with ⟨label, told⟩ | ⟨arguments, told⟩ <;>
        simp [told, Expr.isReference, access]
  | case2 tree last =>
    rw [end_told last, IsGrounded, root_of_end last]
    simp [accessed_of_end last]

def spelled (tree : SyntaxTree) : String :=
  (Expr.ofTree tree).text

def baseList (definition : SyntaxTree) : List SyntaxTree :=
  match definition.field? .superclasses with
  | some superclasses => superclasses.parts
  | none => []

theorem bases_named (definition : SyntaxTree) :
    basesOf definition = (baseList definition).filterMap baseName? := by
  rw [basesOf, baseList]
  cases definition.field? .superclasses <;> rfl

theorem bases_of_list (definition : SyntaxTree) :
    basesOf definition = ((baseList definition).filter fun entry =>
      IsGrounded entry ∨ IsAccessed entry).map spelled := by
  rw [bases_named, ← List.filterMap_eq_filter, ← List.filterMap_eq_map, List.filterMap_filterMap]
  refine List.filterMap_congr fun entry _ => ?_
  rw [base_name_of]
  by_cases kept : (Expr.ofTree entry).isReference = true
  · have either := (reference_iff entry).mp kept
    rw [if_pos kept]
    simp [Option.guard, either, spelled]
  · have neither := mt (reference_iff entry).mpr kept
    rw [if_neg kept]
    simp [Option.guard, neither]

theorem bases_of_description {definition : SyntaxTree} {record : ClassRecord}
    (described : describe? definition = some record) : record.bases = basesOf definition := by
  rw [describe?] at described
  obtain ⟨name, -, rest⟩ := Option.bind_eq_some_iff.mp described
  obtain ⟨body, -, whole⟩ := Option.bind_eq_some_iff.mp rest
  cases whole
  rw [add_attributes rfl]

theorem constructed_unkept {entry : SyntaxTree}
    (constructed : entry.kind ∈ [.call, .keywordArgument, .listSplat, .dictionarySplat]) :
    ¬ (IsGrounded entry ∨ IsAccessed entry) := by
  have last : holder? entry = none := by
    simp only [List.mem_cons, List.not_mem_nil, or_false] at constructed
    rw [holder?]
    rcases constructed with kind | kind | kind | kind <;> rw [kind]
  rw [← reference_iff, end_told last]
  intro named
  simp [named] at constructed

theorem filters_agree_iff {α β : Type} {more fewer : α → Bool} (f : α → β)
    (implied : ∀ item, fewer item = true → more item = true) (items : List α) :
    (items.filter more).map f = (items.filter fewer).map f ↔
      ∀ item ∈ items, more item = true → fewer item = true := by
  constructor
  · intro same item member kept
    have length : (items.filter fewer).length = (items.filter more).length := by
      simpa using (congrArg List.length same).symm
    have equal := (List.monotone_filter_right items implied).eq_of_length length
    have present := List.mem_filter.mpr ⟨member, kept⟩
    rw [← equal] at present
    exact (List.mem_filter.mp present).2
  · intro each
    rw [List.filter_congr fun item member =>
      Bool.eq_iff_iff.mpr ⟨each item member, implied item⟩]

-- The bases of a class are the entries of its list whose spine ends in a name or has a member or
-- an index on it, in order; the text of the former starts with that name. Calls, keyword arguments
-- and starred entries give no base and no relation. So the bases are those that end in a name
-- exactly when no member or index of anything else is in the list.
theorem bases_grounded_unless_accessed {definition : SyntaxTree} {record : ClassRecord}
    (described : describe? definition = some record) :
    record.bases = ((baseList definition).filter fun entry =>
      IsGrounded entry ∨ IsAccessed entry).map spelled ∧
    (∀ entry, IsGrounded entry → ∃ more, spelled entry = (root entry).text ++ more) ∧
    (∀ entry : SyntaxTree,
      entry.kind ∈ [.call, .keywordArgument, .listSplat, .dictionarySplat] →
        ¬ (IsGrounded entry ∨ IsAccessed entry)) ∧
    (∀ edge ∈ inheritanceOf record, ∃ entry ∈ baseList definition,
      (IsGrounded entry ∨ IsAccessed entry) ∧
        edge = ⟨.inheritance, record.name, spelled entry⟩) ∧
    (record.bases = ((baseList definition).filter IsGrounded).map spelled ↔
      ∀ entry ∈ baseList definition, IsAccessed entry → IsGrounded entry) := by
  have bases := (bases_of_description described).trans (bases_of_list definition)
  refine ⟨bases, fun _ => grounded_text, fun _ => constructed_unkept, ?_, ?_⟩
  · intro edge member
    obtain ⟨base, present, -, told⟩ := mem_inheritance_of member
    rw [bases] at present
    obtain ⟨entry, kept, rfl⟩ := List.mem_map.mp present
    obtain ⟨listed, either⟩ := List.mem_filter.mp kept
    exact ⟨entry, listed, of_decide_eq_true either, told⟩
  · have weaker : ∀ entry, decide (IsGrounded entry) = true →
        decide (IsGrounded entry ∨ IsAccessed entry) = true := by
      intro entry grounded
      exact decide_eq_true (.inl (of_decide_eq_true grounded))
    rw [bases, filters_agree_iff spelled weaker]
    simp only [decide_eq_true_eq]
    apply forall_congr'
    intro entry
    apply imp_congr_right
    intro _
    exact or_imp.trans (and_iff_right id)

def mixedClass : SyntaxTree :=
  .node .classDefinition "" [
    (.name, .leaf .identifier "A"),
    (.superclasses, .phrase .argumentList "" [
      .node .attribute "" [(.object, .leaf .identifier "b"), (.attribute, .leaf .identifier "C")],
      .phrase .call "" [.leaf .identifier "make"],
      .phrase .keywordArgument "" [.leaf .identifier "metaclass", .leaf .identifier "M"]]),
    (.body, .phrase .block "" [])]

theorem bases_of_mixed_class :
    describe? mixedClass = some ⟨"A", ["b.C"], [], []⟩ ∧
    ["b.C"] = ((baseList mixedClass).filter IsGrounded).map spelled := by
  have described : describe? mixedClass = some ⟨"A", ["b.C"], [], []⟩ := by decide +kernel
  have grounded : ∀ entry ∈ baseList mixedClass, IsAccessed entry → IsGrounded entry := by
    decide +kernel
  obtain ⟨-, -, -, -, exactly⟩ := bases_grounded_unless_accessed described
  exact ⟨described, exactly.mpr grounded⟩

-- The result of a call is no class of the source, and its members are recorded all the same.
theorem member_of_call_recorded :
    ((parse? "class A(make().Base): pass
").map fun module =>
      (classesOf module).map ClassRecord.bases) = some [["Call.Base"]] ∧
    ((parse? "class A(make().Base): pass
").map fun module =>
      (module.parts.flatMap baseList).map fun entry => (root entry).kind) = some [.call] := by
  decide +kernel

end SourceDiagram.ObjectModel
