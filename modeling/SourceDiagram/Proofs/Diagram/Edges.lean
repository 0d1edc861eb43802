import SourceDiagram.Proofs.Diagram.Layout

set_option autoImplicit false

namespace SourceDiagram.Diagram

open SourceDiagram.Model
open SourceDiagram.Text

def ofKind (kind : EdgeKind) (edges : List Edge) : List Edge :=
  edges.filter fun edge => edge.kind = kind

def edgeOf? (line : String) : Option Edge :=
  let behind := (line.toList.reverse.takeWhile fun c => !isBlank c).reverse
  let before := (line.toList.reverse.dropWhile fun c => !isBlank c).reverse
  match " <|-- ".toList.isSuffixOf? before with
  | some base => some ⟨.inheritance, String.ofList behind, String.ofList base⟩
  | none => (" *-- ".toList.isSuffixOf? before).map fun owner =>
    ⟨.composition, String.ofList owner, String.ofList behind⟩

structure Traceable (edge : Edge) : Prop where
  source : ∀ c ∈ edge.source.toList, isBlank c = false
  target : edge.kind = .composition → ∀ c ∈ edge.target.toList, isBlank c = false
  line : '\n' ∉ edge.target.toList

instance (edge : Edge) : Decidable (Traceable edge) :=
  decidable_of_iff ((∀ c ∈ edge.source.toList, isBlank c = false) ∧
      (edge.kind = .composition → ∀ c ∈ edge.target.toList, isBlank c = false) ∧
      '\n' ∉ edge.target.toList)
    ⟨fun ⟨source, target, line⟩ => ⟨source, target, line⟩,
      fun ⟨source, target, line⟩ => ⟨source, target, line⟩⟩

theorem edge_lines_of_kinds (edges : List Edge) :
    edgeLines edges = (ofKind .inheritance edges ++ ofKind .composition edges).map edgeLine := by
  rw [edge_lines_by_kind, List.map_append]
  rfl

theorem of_kind_again (kind : EdgeKind) (edges : List Edge) :
    ofKind kind (ofKind kind edges) = ofKind kind edges :=
  List.filter_eq_self.mpr fun _ member => (List.mem_filter.mp member).2

theorem of_kind_apart {kind other : EdgeKind} (different : kind ≠ other) (edges : List Edge) :
    ofKind kind (ofKind other edges) = [] := by
  refine List.filter_eq_nil_iff.mpr fun edge member => ?_
  have known : edge.kind = other := by simpa using (List.mem_filter.mp member).2
  simpa [known] using different.symm

theorem of_kind_joined (kind : EdgeKind) (edges : List Edge) :
    ofKind kind (ofKind .inheritance edges ++ ofKind .composition edges) = ofKind kind edges := by
  have split : ofKind kind (ofKind .inheritance edges ++ ofKind .composition edges) =
      ofKind kind (ofKind .inheritance edges) ++ ofKind kind (ofKind .composition edges) :=
    List.filter_append _ _
  rw [split]
  cases kind with
  | inheritance => rw [of_kind_again, of_kind_apart (by decide), List.append_nil]
  | composition => rw [of_kind_again, of_kind_apart (by decide), List.nil_append]

theorem inheritance_lines (edges : List Edge) :
    (ofKind .inheritance edges).map edgeLine =
      (ofKind .inheritance edges).map fun edge => edge.target ++ " <|-- " ++ edge.source := by
  refine List.map_congr_left fun edge member => ?_
  have kind : edge.kind = .inheritance := by simpa using (List.mem_filter.mp member).2
  rw [edgeLine, kind]

theorem composition_lines (edges : List Edge) :
    (ofKind .composition edges).map edgeLine =
      (ofKind .composition edges).map fun edge => edge.source ++ " *-- " ++ edge.target := by
  refine List.map_congr_left fun edge member => ?_
  have kind : edge.kind = .composition := by simpa using (List.mem_filter.mp member).2
  rw [edgeLine, kind]

theorem last_word (front : List Char) {word : List Char} (solid : ∀ c ∈ word, isBlank c = false)
    (space : ∀ c ∈ front.getLast?, isBlank c = true) :
    ((front ++ word).reverse.takeWhile fun c => !isBlank c).reverse = word ∧
      ((front ++ word).reverse.dropWhile fun c => !isBlank c).reverse = front := by
  have letters : ∀ c ∈ word.reverse, isBlank c = false :=
    fun c member => solid c (List.mem_reverse.mp member)
  rw [← List.head?_reverse] at space
  obtain ⟨kept, left⟩ := word_split letters space
  rw [List.reverse_append, kept, left, List.reverse_reverse, List.reverse_reverse]
  exact ⟨rfl, rfl⟩

theorem arrows_apart (owner : List Char) :
    " <|-- ".toList.isSuffixOf? (owner ++ " *-- ".toList) = none := by
  rw [Option.eq_none_iff_forall_ne_some]
  intro base found
  have same := List.isSuffixOf?_eq_some_iff_append_eq.mp found
  have turned := congrArg List.reverse same
  simp at turned

theorem edge_of_line {edge : Edge} (traceable : Traceable edge) :
    edgeOf? (edgeLine edge) = some edge := by
  obtain ⟨kind, source, target⟩ := edge
  cases kind with
  | inheritance =>
    have line : (edgeLine ⟨.inheritance, source, target⟩).toList =
        target.toList ++ " <|-- ".toList ++ source.toList := by simp [edgeLine]
    obtain ⟨behind, before⟩ := last_word (target.toList ++ " <|-- ".toList)
      traceable.source (by simp; decide)
    have base : " <|-- ".toList.isSuffixOf? (target.toList ++ " <|-- ".toList) =
        some target.toList := List.isSuffixOf?_eq_some_iff_append_eq.mpr rfl
    simp only [edgeOf?, line, behind, before, base, String.ofList_toList]
  | composition =>
    have line : (edgeLine ⟨.composition, source, target⟩).toList =
        source.toList ++ " *-- ".toList ++ target.toList := by simp [edgeLine]
    obtain ⟨behind, before⟩ := last_word (source.toList ++ " *-- ".toList)
      (traceable.target rfl) (by simp; decide)
    have owner : " *-- ".toList.isSuffixOf? (source.toList ++ " *-- ".toList) =
        some source.toList := List.isSuffixOf?_eq_some_iff_append_eq.mpr rfl
    simp only [edgeOf?, line, behind, before, arrows_apart, owner, Option.map_some,
      String.ofList_toList]

section

variable {records : List ClassRecord} (present : records ≠ []) {edges others : List Edge}

include present

theorem lines_in_order
    (flat : ∀ text ∈ records.flatMap classTexts ++ edges.flatMap edgeTexts, '\n' ∉ text.toList) :
    linesOf (objectModelMarkup records edges) =
      ["@startuml", "skinparam linetype ortho", "!pragma teoz true"] ++
        records.flatMap (fun record => ("class " ++ record.name ++ " \x7b") ::
          (record.attributes.map attributeLine ++ record.methods.map methodLine ++ ["\x7d"])) ++
        (ofKind .inheritance edges).map (fun edge => edge.target ++ " <|-- " ++ edge.source) ++
        (ofKind .composition edges).map (fun edge => edge.source ++ " *-- " ++ edge.target) ++
        ["@enduml"] := by
  have blocks : classLines = fun record => ("class " ++ record.name ++ " \x7b") ::
      (record.attributes.map attributeLine ++ record.methods.map methodLine ++ ["\x7d"]) := by
    funext record
    rw [classLines, List.append_assoc, List.append_assoc, List.singleton_append, List.append_assoc]
    rfl
  rw [lines_of_object_model present flat, edge_lines_of_kinds, List.map_append, inheritance_lines,
    composition_lines, blocks, ← List.append_assoc]
  rfl

theorem drawn_by_kinds (bases : ofKind .inheritance edges = ofKind .inheritance others)
    (parts : ofKind .composition edges = ofKind .composition others) :
    objectModelMarkup records edges = objectModelMarkup records others := by
  rw [objectModelMarkup, objectModelMarkup, object_model_lines present, object_model_lines present,
    edge_lines_of_kinds, edge_lines_of_kinds, bases, parts]

theorem edge_lines_from_markup {edges others : List Edge}
    (whole : ∀ edge ∈ edges, '\n' ∉ (edgeLine edge).toList)
    (othersWhole : ∀ edge ∈ others, '\n' ∉ (edgeLine edge).toList)
    (same : objectModelMarkup records edges = objectModelMarkup records others) :
    edgeLines edges = edgeLines others := by
  have tail : ∀ {edges : List Edge}, (∀ edge ∈ edges, '\n' ∉ (edgeLine edge).toList) →
      linesOf (text (edgeLines edges ++ [closing])) = edgeLines edges ++ [closing] := by
    intro edges whole
    refine lines_of_text (by simp) (List.forall_mem_append.mpr ⟨?_, by decide⟩)
    intro line member
    obtain ⟨edge, known, rfl⟩ := mem_edge_lines member
    exact whole edge known
  have front : [opening] ++ directives ++ records.flatMap classLines ≠ [] := by simp
  rw [objectModelMarkup, objectModelMarkup, object_model_lines present, object_model_lines present,
    List.append_assoc _ (edgeLines edges), List.append_assoc _ (edgeLines others), text, text,
    String.intercalate_append_of_ne_nil front (by simp),
    String.intercalate_append_of_ne_nil front (by simp), String.append_right_inj] at same
  have lines := congrArg linesOf same
  rw [← text, ← text, tail whole, tail othersWhole] at lines
  exact List.append_cancel_right lines

end

theorem Traceable.whole {edge : Edge} (traceable : Traceable edge) :
    '\n' ∉ (edgeLine edge).toList := by
  have source : '\n' ∉ edge.source.toList := fun member =>
    absurd (traceable.source '\n' member) (by decide)
  rw [edgeLine]
  cases edge.kind with
  | inheritance => simp [source, traceable.line]
  | composition => simp [source, traceable.line]

theorem edges_of_lines {edges : List Edge} (traceable : ∀ edge ∈ edges, Traceable edge) :
    (edgeLines edges).filterMap edgeOf? = ofKind .inheritance edges ++ ofKind .composition edges := by
  have known : ∀ edge ∈ ofKind .inheritance edges ++ ofKind .composition edges,
      edgeOf? (edgeLine edge) = some edge := by
    intro edge member
    have present := (kinds_permuted edges).mem_iff.mp member
    exact edge_of_line (traceable edge present)
  rw [edge_lines_of_kinds, List.filterMap_map]
  exact (List.filterMap_congr known).trans List.filterMap_some

-- Where no text holds a line feed, a diagram of classes is its directives, the classes with a line
-- for each member, the relations to bases and then those to parts, in order. So it is the same for
-- all lists with the same relations of each kind; and these can be told from it again where the
-- names in relations, those of bases apart, hold no white space.
theorem relations_drawn_by_kind {records : List ClassRecord} (present : records ≠ []) :
    (∀ edges, (∀ text ∈ records.flatMap classTexts ++ edges.flatMap edgeTexts,
        '\n' ∉ text.toList) →
      linesOf (objectModelMarkup records edges) =
        ["@startuml", "skinparam linetype ortho", "!pragma teoz true"] ++
          records.flatMap (fun record => ("class " ++ record.name ++ " \x7b") ::
            (record.attributes.map attributeLine ++ record.methods.map methodLine ++ ["\x7d"])) ++
          (ofKind .inheritance edges).map (fun edge => edge.target ++ " <|-- " ++ edge.source) ++
          (ofKind .composition edges).map (fun edge => edge.source ++ " *-- " ++ edge.target) ++
          ["@enduml"] ∧
      (ofKind .inheritance edges ++ ofKind .composition edges).Perm edges) ∧
    (∀ edges others, ofKind .inheritance edges = ofKind .inheritance others →
      ofKind .composition edges = ofKind .composition others →
      objectModelMarkup records edges = objectModelMarkup records others) ∧
    ∀ edges others, (∀ edge ∈ edges, Traceable edge) → (∀ edge ∈ others, Traceable edge) →
      objectModelMarkup records edges = objectModelMarkup records others →
      ofKind .inheritance edges = ofKind .inheritance others ∧
        ofKind .composition edges = ofKind .composition others := by
  refine ⟨?_, fun edges others => drawn_by_kinds present, ?_⟩
  · intro edges flat
    exact ⟨lines_in_order present flat, kinds_permuted edges⟩
  · intro edges others traceable othersTraceable same
    have lines := edge_lines_from_markup present (fun edge known => (traceable edge known).whole)
      (fun edge known => (othersTraceable edge known).whole) same
    have drawn : ofKind .inheritance edges ++ ofKind .composition edges =
        ofKind .inheritance others ++ ofKind .composition others := by
      rw [← edges_of_lines traceable, lines, edges_of_lines othersTraceable]
    have each : ∀ kind, ofKind kind edges = ofKind kind others := by
      intro kind
      rw [← of_kind_joined kind edges, drawn, of_kind_joined]
    exact ⟨each .inheritance, each .composition⟩

-- Two orders of the same relations, where a base holds what looks like an arrow.
def chainRecords : List ClassRecord :=
  [⟨"A", ["G[K, V] *-- B"], [⟨"_b", "B"⟩], [⟨"m", [⟨"x", ""⟩], "", .staticMethod⟩]⟩, ⟨"B", [], [], []⟩]

def chainEdges : List Edge :=
  [⟨.composition, "A", "B"⟩, ⟨.inheritance, "A", "G[K, V] *-- B"⟩, ⟨.composition, "B", "A"⟩]

def turnedEdges : List Edge :=
  [⟨.inheritance, "A", "G[K, V] *-- B"⟩, ⟨.composition, "A", "B"⟩, ⟨.composition, "B", "A"⟩]

theorem chain_drawn_in_two_orders :
    (chainRecords ≠ [] ∧
      (∀ text ∈ chainRecords.flatMap classTexts ++ chainEdges.flatMap edgeTexts,
        '\n' ∉ text.toList) ∧
      (∀ edge ∈ chainEdges, Traceable edge) ∧ ∀ edge ∈ turnedEdges, Traceable edge) ∧
    linesOf (objectModelMarkup chainRecords chainEdges) =
      ["@startuml", "skinparam linetype ortho", "!pragma teoz true", "class A \x7b", "  # _b: B",
        "  + m(x) «static»", "\x7d", "class B \x7b", "\x7d", "G[K, V] *-- B <|-- A", "A *-- B",
        "B *-- A", "@enduml"] ∧
    objectModelMarkup chainRecords chainEdges = objectModelMarkup chainRecords turnedEdges ∧
    ofKind .composition chainEdges = ofKind .composition turnedEdges := by
  have present : chainRecords ≠ [] := List.cons_ne_nil _ _
  have flat : ∀ text ∈ chainRecords.flatMap classTexts ++ chainEdges.flatMap edgeTexts,
      '\n' ∉ text.toList := by decide +kernel
  have traceable : ∀ edge ∈ chainEdges, Traceable edge := by decide +kernel
  have turned : ∀ edge ∈ turnedEdges, Traceable edge := by decide +kernel
  obtain ⟨lines, drawn, told⟩ := relations_drawn_by_kind present
  have same := drawn chainEdges turnedEdges (by decide) (by decide)
  refine ⟨⟨present, flat, traceable, turned⟩, ?_, same, (told _ _ traceable turned same).2⟩
  rw [(lines chainEdges flat).1]
  decide +kernel

end SourceDiagram.Diagram
