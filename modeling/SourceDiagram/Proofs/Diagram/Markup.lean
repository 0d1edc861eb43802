import Mathlib.Data.List.Nodup
import SourceDiagram.Diagram.Rendering
import SourceDiagram.Proofs.Relation

set_option autoImplicit false

namespace SourceDiagram.Diagram

open SourceDiagram.Model

theorem text_cons (line next : String) (lines : List String) :
    text (line :: next :: lines) = line ++ "\n" ++ text (next :: lines) :=
  String.intercalate_cons_cons

theorem object_model_lines {records : List ClassRecord} (present : records ≠ [])
    (edges : List Edge) :
    objectModelLines records edges =
      [opening] ++ directives ++ records.flatMap classLines ++ edgeLines edges ++ [closing] := by
  rw [objectModelLines, if_neg (by simpa using present)]

theorem markup_placeholder_iff (records : List ClassRecord) (edges : List Edge) :
    objectModelMarkup records edges = placeholder ↔ records = [] := by
  constructor
  · intro same
    cases records with
    | nil => rfl
    | cons record records =>
      rw [objectModelMarkup, object_model_lines (List.cons_ne_nil _ _)] at same
      have tenth := congrArg (fun whole : String => whole.toList[10]?) same
      simp [text_cons, placeholder, placeholderLines, directives, opening] at tenth
  · rintro rfl
    rfl

def ClassBlock (name : String) (block : List String) : Prop :=
  ∃ members, block = header "class" name :: (members ++ [footer]) ∧
    ∀ member ∈ members, ∃ rest, member = "  " ++ rest

theorem attribute_line_deeper (member : Attribute) : ∃ rest, attributeLine member = "  " ++ rest := by
  rw [attributeLine]
  split
  · exact ⟨member.visibility.marker ++ (" " ++ member.name), by simp [String.append_assoc]⟩
  · exact ⟨member.visibility.marker ++ (" " ++ (member.name ++ (": " ++ member.declaredType))),
      by simp [String.append_assoc]⟩

theorem method_line_deeper (method : Method) : ∃ rest, methodLine method = "  " ++ rest := by
  rw [methodLine]
  split
  · rename_i stereotype _
    exact ⟨method.visibility.marker ++ (" " ++ (method.signature ++ (" " ++ stereotype))),
      by simp [String.append_assoc]⟩
  · exact ⟨method.visibility.marker ++ (" " ++ method.signature), by simp [String.append_assoc]⟩

theorem class_lines_block (record : ClassRecord) : ClassBlock record.name (classLines record) := by
  refine ⟨record.attributes.map attributeLine ++ record.methods.map methodLine,
    by simp [classLines], ?_⟩
  intro member present
  rcases List.mem_append.mp present with first | later
  · obtain ⟨field, -, rfl⟩ := List.mem_map.mp first
    exact attribute_line_deeper field
  · obtain ⟨method, -, rfl⟩ := List.mem_map.mp later
    exact method_line_deeper method

theorem header_injective {name other : String} (same : header "class" name = header "class" other) :
    name = other := by
  simpa [header, String.append_assoc] using same

theorem no_header (line : String) (apart : line.toList.head? ≠ some 'c') (name : String) :
    line ≠ header "class" name := by
  rintro rfl
  exact apart (by simp [header])

theorem ClassBlock.headers {name : String} {block : List String} (drawn : ClassBlock name block)
    (other : String) : block.count (header "class" other) = if name = other then 1 else 0 := by
  obtain ⟨members, rfl, deeper⟩ := drawn
  have inside : members.count (header "class" other) = 0 := by
    refine List.count_eq_zero.mpr fun present => ?_
    obtain ⟨rest, same⟩ := deeper _ present
    exact no_header ("  " ++ rest) (by simp) other same.symm
  have last : footer ≠ header "class" other := no_header footer (by decide) other
  rw [List.count_cons, List.count_append, inside, List.count_singleton]
  by_cases same : name = other
  · simp [same, last]
  · have different : header "class" name ≠ header "class" other := fun equal =>
      same (header_injective equal)
    simp [same, different, last]

theorem headers_of_classes (records : List ClassRecord) (name : String) :
    (records.flatMap classLines).count (header "class" name) =
      (records.map ClassRecord.name).count name := by
  induction records with
  | nil => rfl
  | cons record records ih =>
    rw [List.flatMap_cons, List.count_append, ih, (class_lines_block record).headers, List.map_cons,
      List.count_cons]
    simp only [beq_iff_eq]
    exact Nat.add_comm _ _

def linesOf (text : String) : List String :=
  (text.toList.splitOn '\n').map String.ofList

theorem lines_of_text {lines : List String} (present : lines ≠ [])
    (whole : ∀ line ∈ lines, '\n' ∉ line.toList) : linesOf (text lines) = lines := by
  have cut : (text lines).toList.splitOn '\n' = lines.map String.toList := by
    rw [text, String.toList_intercalate]
    exact List.splitOn_intercalate '\n' (by simpa using whole) (by simpa using present)
  rw [linesOf, cut, List.map_map]
  simp [Function.comp_def]

-- Whether nothing that is drawn of a class breaks its line, and no brace ends its name.
structure Unbroken (record : ClassRecord) : Prop where
  lines : ∀ line ∈ classLines record, '\n' ∉ line.toList
  bases : ∀ base ∈ record.bases, '\n' ∉ base.toList
  name : '\x7b' ∉ record.name.toList

theorem Unbroken.name_whole {record : ClassRecord} (unbroken : Unbroken record) :
    '\n' ∉ record.name.toList := by
  have first := unbroken.lines (header "class" record.name) (by simp [classLines])
  simpa [header, not_or] using first

theorem link_no_header {front mark back : String} (spaced : mark.toList.getLast? = some ' ')
    (unbraced : '\x7b' ∉ back.toList) (name : String) :
    front ++ mark ++ back ≠ header "class" name := by
  intro same
  have last := congrArg (fun whole : String => whole.toList.getLast?) same
  simp only [header, String.toList_append, List.getLast?_append] at last
  cases ending : back.toList.getLast? with
  | none => simp [ending, spaced] at last
  | some c =>
    have brace : c = '\x7b' := by simpa [ending] using last
    exact unbraced (brace ▸ List.mem_of_getLast? ending)

theorem mem_edge_lines {edges : List Edge} {line : String} (member : line ∈ edgeLines edges) :
    ∃ edge ∈ edges, line = edgeLine edge := by
  obtain ⟨kind, -, inside⟩ := List.mem_flatMap.mp member
  obtain ⟨edge, kept, rfl⟩ := List.mem_map.mp inside
  exact ⟨edge, (List.mem_filter.mp kept).1, rfl⟩

theorem link_line {records : List ClassRecord} {edge : Edge} (member : edge ∈ relations records) :
    ∃ front mark back, edgeLine edge = front ++ mark ++ back ∧
      (mark = " <|-- " ∨ mark = " *-- ") ∧ (∃ record ∈ records, back = record.name) ∧
      ∃ record ∈ records, front = record.name ∨ front ∈ record.bases := by
  rcases List.mem_append.mp member with inherited | composed
  · obtain ⟨record, known, inside⟩ := List.mem_flatMap.mp inherited
    obtain ⟨base, present, -, rfl⟩ := mem_inheritance_of inside
    exact ⟨base, " <|-- ", record.name, rfl, .inl rfl, ⟨record, known, rfl⟩,
      record, known, .inr present⟩
  · obtain ⟨record, known, inside⟩ := List.mem_flatMap.mp composed
    obtain ⟨part, present, -, rfl⟩ := mem_composition_of inside
    obtain ⟨other, named, rfl⟩ := List.mem_map.mp present
    exact ⟨record.name, " *-- ", other.name, rfl, .inr rfl, ⟨other, named, rfl⟩,
      record, known, .inl rfl⟩

section Unbroken

variable {records : List ClassRecord} (unbroken : ∀ record ∈ records, Unbroken record)

include unbroken

theorem links_unbroken {line : String} (member : line ∈ edgeLines (relations records)) :
    '\n' ∉ line.toList := by
  obtain ⟨edge, related, rfl⟩ := mem_edge_lines member
  obtain ⟨front, mark, back, drawn, marked, ⟨last, known, rfl⟩, first, present, begins⟩ :=
    link_line related
  have behind := (unbroken last known).name_whole
  have before : '\n' ∉ front.toList := by
    rcases begins with rfl | based
    · exact (unbroken first present).name_whole
    · exact (unbroken first present).bases front based
  rcases marked with rfl | rfl
  · simp [drawn, before, behind]
  · simp [drawn, before, behind]

theorem links_no_header (name : String) :
    (edgeLines (relations records)).count (header "class" name) = 0 := by
  refine List.count_eq_zero.mpr fun member => ?_
  obtain ⟨edge, related, same⟩ := mem_edge_lines member
  obtain ⟨front, mark, back, drawn, marked, ⟨last, known, rfl⟩, -⟩ := link_line related
  have spaced : mark.toList.getLast? = some ' ' := by
    rcases marked with rfl | rfl
    · rfl
    · rfl
  exact link_no_header spaced (unbroken last known).name name (drawn.symm.trans same.symm)

theorem headers_of_markup (present : records ≠ []) (name : String) :
    (linesOf (objectModelMarkup records (relations records))).count (header "class" name) =
      (records.map ClassRecord.name).count name := by
  have whole : ∀ line ∈ objectModelLines records (relations records), '\n' ∉ line.toList := by
    rw [object_model_lines present]
    simp only [List.forall_mem_append, List.forall_mem_flatMap]
    exact ⟨⟨⟨⟨by decide, by decide⟩, fun record known => (unbroken record known).lines⟩,
      fun line => links_unbroken unbroken⟩, by decide⟩
  rw [objectModelMarkup, lines_of_text (by simp [object_model_lines present]) whole,
    object_model_lines present]
  have front : ([opening] ++ directives).count (header "class" name) = 0 := by
    have apart : ∀ line ∈ [opening] ++ directives, line.toList.head? ≠ some 'c' := by decide
    exact List.count_eq_zero.mpr fun member => no_header _ (apart _ member) name rfl
  have back : [closing].count (header "class" name) = 0 := by
    refine List.count_eq_zero.mpr fun member => ?_
    exact no_header closing (by decide) name (List.mem_singleton.mp member).symm
  rw [List.count_append, List.count_append, List.count_append, front, back,
    headers_of_classes, links_no_header unbroken, Nat.zero_add, Nat.add_zero]

end Unbroken

end SourceDiagram.Diagram
