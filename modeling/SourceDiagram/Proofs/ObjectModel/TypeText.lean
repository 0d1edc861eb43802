import SourceDiagram.Proofs.ObjectModel.Calm
import SourceDiagram.Proofs.ObjectModel.Lowering
import SourceDiagram.Proofs.Related
import SourceDiagram.Proofs.Syntax.Lexing
import SourceDiagram.Syntax.TypeTerm

set_option autoImplicit false

namespace SourceDiagram.ObjectModel

open SourceDiagram.Syntax

-- A name that no keyword is spelled as; `__future__` is one only after `from`.
structure IsName (letters : List Char) : Prop where
  word : IsWord letters
  free : Keyword.ofText? (String.ofList letters) = none ∨
    Keyword.ofText? (String.ofList letters) = some .future_

instance (letters : List Char) : Decidable (IsName letters) :=
  decidable_of_iff (IsWord letters ∧ (Keyword.ofText? (String.ofList letters) = none ∨
    Keyword.ofText? (String.ofList letters) = some .future_))
    ⟨fun both => ⟨both.1, both.2⟩, fun name => ⟨name.word, name.free⟩⟩

def dotted (names : List (List Char)) : List Char :=
  ['.'].intercalate names

def listed (items : List (List Char)) : List Char :=
  [',', ' '].intercalate items

def alternatives (operands : List (List Char)) : List Char :=
  [' ', '|', ' '].intercalate operands

theorem intercalate_cons (mark first : List Char) (texts : List (List Char)) :
    mark.intercalate (first :: texts) = first ++ texts.flatMap fun text => mark ++ text := by
  induction texts generalizing first with
  | nil => simp
  | cons text texts ih => rw [List.intercalate_cons_cons, ih]; simp

theorem dotted_cons (first : List Char) (names : List (List Char)) :
    dotted (first :: names) = first ++ names.flatMap fun name => '.' :: name :=
  intercalate_cons _ first names

theorem listed_cons (first : List Char) (items : List (List Char)) :
    listed (first :: items) = first ++ items.flatMap fun item => ',' :: ' ' :: item :=
  intercalate_cons _ first items

theorem alternatives_cons (first : List Char) (operands : List (List Char)) :
    alternatives (first :: operands) =
      first ++ operands.flatMap fun operand => ' ' :: '|' :: ' ' :: operand :=
  intercalate_cons _ first operands

inductive Part
  | reference | operand | whole

inductive Written : Part → List Char → Prop where
  | path {names : List (List Char)} : names ≠ [] → (∀ name ∈ names, IsName name) →
      Written .reference (dotted names)
  | indexed {names arguments : List (List Char)} : names ≠ [] → (∀ name ∈ names, IsName name) →
      arguments ≠ [] → (∀ argument ∈ arguments, Written .whole argument) →
      Written .reference (dotted names ++ '[' :: (listed arguments ++ [']']))
  | reference {text : List Char} : Written .reference text → Written .operand text
  | list {items : List (List Char)} : (∀ item ∈ items, Written .whole item) →
      Written .operand ('[' :: (listed items ++ [']']))
  | union {operands : List (List Char)} : operands ≠ [] →
      (∀ operand ∈ operands, Written .operand operand) →
      Written .whole (alternatives operands)

structure Told (text : List Char) (tree : SyntaxTree) : Prop where
  part : tree.isPart = true
  calm : Calm tree
  spelled : (Expr.ofTree tree).text.toList = text

structure Refers (text : List Char) (tree : SyntaxTree) : Prop extends Told text tree where
  base : baseName? tree = some (Expr.ofTree tree).text

section

variable {texts : List (List Char)} {trees : List SyntaxTree}

theorem joined_told (told : List.Forall₂ Told texts trees) :
    (joined (trees.map Expr.ofTree)).toList = listed texts := by
  induction told with
  | nil => rfl
  | @cons text tree texts trees first later ih =>
    cases later with
    | nil => simp [joined, first.spelled, listed]
    | @cons text' tree' texts trees second later =>
      rw [List.map_cons, List.map_cons, joined, ← List.map_cons, String.toList_append, ih,
        String.toList_append, first.spelled]
      · simp [listed]
      · simp

theorem told_calm (told : List.Forall₂ Told texts trees) : ∀ tree ∈ trees, Calm tree :=
  forall_right told fun _ _ told => told.calm

theorem told_parts (told : List.Forall₂ Told texts trees) :
    ∀ tree ∈ trees, tree.isPart = true :=
  forall_right told fun _ _ told => told.part

end

theorem lowered_parts {trees : List SyntaxTree} (parts : ∀ tree ∈ trees, tree.isPart = true)
    (role : Role) :
    Lowered.parts ((trees.map fun tree => (role, tree)).map fun child => (child.1, lower child.2)) =
      trees.map lower := by
  have kept : ∀ lowered ∈ trees.map lower, Lowered.isPart lowered = true := by
    intro lowered member
    obtain ⟨tree, present, rfl⟩ := List.mem_map.mp member
    simpa [Lowered.isPart, SyntaxTree.isPart] using parts tree present
  simpa [Lowered.parts, Function.comp_def] using List.filter_eq_self.mpr kept

theorem told_name (letters : List Char) :
    Refers letters (.leaf .identifier (String.ofList letters)) :=
  ⟨⟨rfl, calm_leaf (by decide) rfl, String.toList_ofList⟩, rfl⟩

theorem told_member {text : List Char} {tree : SyntaxTree} (told : Told text tree)
    (letters : List Char) (spanned : String) : Refers (text ++ '.' :: letters)
      (.node .attribute spanned
        [(.object, tree), (.attribute, .leaf .identifier (String.ofList letters))]) := by
  have value : Expr.ofTree (.node .attribute spanned
      [(.object, tree), (.attribute, .leaf .identifier (String.ofList letters))]) =
      .member (Expr.ofTree tree) (String.ofList letters) := by
    rw [of_tree_node]
    rfl
  refine ⟨⟨rfl, .node (by decide) rfl ?_, ?_⟩, ?_⟩
  · simp only [List.forall_mem_cons]
    exact ⟨told.calm, calm_leaf (by decide) rfl, by simp⟩
  · rw [value, Expr.text]
    simp [told.spelled]
  · rw [baseName?, value]

theorem told_subscript {text : List Char} {tree : SyntaxTree} (told : Told text tree)
    {texts : List (List Char)} {trees : List SyntaxTree} (inner : List.Forall₂ Told texts trees)
    (spanned : String) : Refers (text ++ '[' :: (listed texts ++ [']']))
      (.node .subscript spanned
        ((.value, tree) :: trees.map fun index => (.subscript, index))) := by
  have value : Expr.ofTree (.node .subscript spanned
      ((.value, tree) :: trees.map fun index => (.subscript, index))) =
      .subscript (Expr.ofTree tree) (trees.map Expr.ofTree) := by
    have indices : ((trees.map fun index => (Role.subscript, lower index)).filter
        fun child => child.1 = .subscript) = trees.map fun index => (.subscript, lower index) :=
      List.filter_eq_self.mpr (by simp)
    rw [of_tree_node]
    simp [Expr.assemble, Lowered.field?, Lowered.fields, Function.comp_def, indices]
    exact ⟨rfl, fun _ _ => rfl⟩
  refine ⟨⟨rfl, .node (by decide) rfl ?_, ?_⟩, ?_⟩
  · refine List.forall_mem_cons.mpr ⟨told.calm, fun child member => ?_⟩
    obtain ⟨index, present, rfl⟩ := List.mem_map.mp member
    exact told_calm inner index present
  · rw [value, Expr.text]
    simp [told.spelled, joined_told inner]
  · rw [baseName?, value]

theorem told_list {texts : List (List Char)} {trees : List SyntaxTree}
    (inner : List.Forall₂ Told texts trees) (spanned : String) :
    Told ('[' :: (listed texts ++ [']'])) (.phrase .listDisplay spanned trees) := by
  have value : Expr.ofTree (.phrase .listDisplay spanned trees) =
      .list (trees.map Expr.ofTree) := by
    rw [SyntaxTree.phrase, of_tree_node, Expr.assemble, lowered_parts (told_parts inner)]
    simp [Expr.ofTree]
  refine ⟨rfl, calm_phrase (by decide) (fun _ => rfl) (told_calm inner), ?_⟩
  rw [value, Expr.text]
  simp [joined_told inner]

theorem told_either {left right : List Char} {first second : SyntaxTree} (front : Told left first)
    (back : Told right second) : Told (left ++ ([' ', '|', ' '] ++ right))
      (.node .binaryOperator ""
        [(.left, first), (.operator, .mark Mark.bar.text), (.right, second)]) := by
  have value : Expr.ofTree (.node .binaryOperator ""
      [(.left, first), (.operator, .mark Mark.bar.text), (.right, second)]) =
      .union (Expr.ofTree first) (Expr.ofTree second) := by
    rw [of_tree_node]
    have bar : Mark.bar.text = "|" := by decide
    simp [Expr.assemble, Lowered.field?, Expr.ofTree, SyntaxTree.mark, SyntaxTree.leaf, bar]
  refine ⟨rfl, .node (by decide) rfl ?_, ?_⟩
  · simp only [List.forall_mem_cons]
    exact ⟨front.calm, calm_leaf (by decide) rfl, back.calm, by simp⟩
  · rw [value, Expr.text]
    simp [front.spelled, back.spelled]

theorem of_type (tree : SyntaxTree) (part : tree.isPart = true) :
    Expr.ofTree (TypeTerm.ofTree tree) = Expr.ofTree tree := by
  rw [TypeTerm.ofTree, SyntaxTree.phrase, of_tree_node, Expr.assemble,
    lowered_parts (by simpa using part)]
  rfl

theorem told_type {text : List Char} {tree : SyntaxTree} (told : Told text tree) :
    Told text (TypeTerm.ofTree tree) := by
  refine ⟨rfl, calm_phrase (by decide) (fun _ => rfl) (by simpa using told.calm), ?_⟩
  rw [of_type tree told.part, told.spelled]

theorem told_generic (letters : List Char) {texts : List (List Char)} {trees : List SyntaxTree}
    (inner : List.Forall₂ Told texts trees) (spanned : String) :
    Told (letters ++ '[' :: (listed texts ++ [']'])) (.phrase .genericType spanned
      [.leaf .identifier (String.ofList letters), .phrase .typeParameter "" trees]) := by
  have value : Expr.ofTree (.phrase .genericType spanned
      [.leaf .identifier (String.ofList letters), .phrase .typeParameter "" trees]) =
      .subscript (.name (String.ofList letters)) (trees.map Expr.ofTree) := by
    have items : (lower (.phrase .typeParameter "" trees)).items = trees.map Expr.ofTree := by
      rw [SyntaxTree.phrase, lower, lower_all_eq_map, lowered_parts (told_parts inner)]
      show (trees.map lower).map Lowered.value = _
      rw [List.map_map]
      rfl
    rw [SyntaxTree.phrase, of_tree_node, Expr.assemble, lowered_parts (by simp; exact ⟨rfl, rfl⟩)]
    simp only [List.map_cons, List.map_nil, items]
    rfl
  refine ⟨rfl, calm_phrase (by decide) (fun _ => rfl) ?_, ?_⟩
  · simp only [List.forall_mem_cons]
    exact ⟨calm_leaf (by decide) rfl, calm_phrase (by decide) (fun _ => rfl) (told_calm inner),
      by simp⟩
  · rw [value, Expr.text, Expr.text]
    simp [joined_told inner]

theorem told_member_type {text : List Char} {tree : SyntaxTree} (told : Told text tree)
    (letters : List Char) : Told (text ++ '.' :: letters)
      (.phrase .memberType "" [tree, .leaf .identifier (String.ofList letters)]) := by
  have value : Expr.ofTree (.phrase .memberType "" [tree, .leaf .identifier (String.ofList letters)]) =
      .member (Expr.ofTree tree) (String.ofList letters) := by
    have part : (SyntaxTree.leaf .identifier (String.ofList letters)).isPart = true := rfl
    rw [SyntaxTree.phrase, of_tree_node, Expr.assemble, lowered_parts (by simp [told.part, part])]
    rfl
  refine ⟨rfl, calm_phrase (by decide) (fun _ => rfl) ?_, ?_⟩
  · simp only [List.forall_mem_cons]
    exact ⟨told.calm, calm_leaf (by decide) rfl, by simp⟩
  · rw [value, Expr.text]
    simp [told.spelled]

theorem told_union {left right : List Char} {first second : SyntaxTree} (front : Told left first)
    (back : Told right second) :
    Told (left ++ ([' ', '|', ' '] ++ right)) (.phrase .unionType "" [first, second]) := by
  have value : Expr.ofTree (.phrase .unionType "" [first, second]) =
      .union (Expr.ofTree first) (Expr.ofTree second) := by
    rw [SyntaxTree.phrase, of_tree_node, Expr.assemble,
      lowered_parts (by simp [front.part, back.part])]
    rfl
  refine ⟨rfl, calm_phrase (by decide) (fun _ => rfl) ?_, ?_⟩
  · simp only [List.forall_mem_cons]
    exact ⟨front.calm, back.calm, by simp⟩
  · rw [value, Expr.text]
    simp [front.spelled, back.spelled]

end SourceDiagram.ObjectModel
