import SourceDiagram.Proofs.ObjectModel.Classes

set_option autoImplicit false

namespace SourceDiagram.ObjectModel

open SourceDiagram.Model
open SourceDiagram.Syntax
open SourceDiagram.Syntax.Statement

section

variable {limit depth size : Nat} {rest : List Char}

theorem class_body_breaks (declared : ClassText) (apart : Apart rest) :
    Breaks (declared.body ++ rest) 4 := by
  rw [ClassText.body]
  cases declared.attributes with
  | nil =>
    cases declared.methods with
    | nil => exact pass_begins apart
    | cons method methods =>
      rw [if_neg (by simp), List.flatMap_nil, List.nil_append, List.flatMap_cons, List.append_assoc]
      exact method_begins method _
  | cons member members =>
    rw [if_neg (by simp), List.flatMap_cons, List.append_assoc, List.append_assoc]
    exact attribute_line_begins member _

theorem method_length (method : MethodText) : 0 < method.text.length := by
  simp only [MethodText.text, line, List.length_append, List.length_cons]
  omega

theorem class_body_read (wide : size + 1 < limit) (deep : size + 1 < depth) (declared : ClassText)
    (short : declared.body.length ≤ size) (breaks : Breaks rest 0) :
    Runs (body (nested limit (depth + 2))) ⟨':' :: (declared.body ++ rest), []⟩ ⟨rest, []⟩
      fun tree => ∃ trees, tree = .phrase .block "" trees ∧ Filled declared trees := by
  have grasps : Grasps (nested limit (depth + 1)) size := nested_grasps wide (by omega)
  have inside : (nested limit (depth + 2)).read .suite = suite (nested limit (depth + 1)) := rfl
  refine body_run inside (class_body_breaks declared breaks.apart) (by simp) ?_
  rw [ClassText.body] at short ⊢
  cases empty : declared.attributes.isEmpty && declared.methods.isEmpty with
  | true =>
    simp only [Bool.and_eq_true, List.isEmpty_iff] at empty
    rw [if_pos rfl]
    refine (pass_block_read (show 1 < limit by omega) breaks (show 0 < 4 by decide)).mono ?_
    rintro trees rfl
    exact .pass empty.1 empty.2
  | false =>
    rw [empty, if_neg (by simp), List.length_append] at short
    rw [if_neg (by simp), List.append_assoc]
    have members := count_le_flat (f := ClassText.attributeLine)
      (fun member => Nat.zero_lt_of_lt (attribute_line_length member)) declared.attributes
    have methods := count_le_flat method_length declared.methods
    have last : Remains rest 4 := ⟨0, by decide, breaks⟩
    have middle : Remains (declared.methods.flatMap MethodText.text ++ rest) 4 :=
      lines_remain MethodText.text last fun method _ after _ => method_begins method after
    refine lines_run ClassText.attributeLine middle
      (fun member _ after _ => attribute_line_begins member after)
      (fun member present after remains => ?_) (show _ < limit by omega)
      fun lines (sighted : List.Forall₂ (Line classSights) _ lines) => ?_
    · obtain ⟨next, _, breaks⟩ := remains
      have outer := length_in_flat (f := ClassText.attributeLine) present
      have inner := attribute_line_length member
      exact attribute_read grasps member (by omega) breaks
    · refine lines_run MethodText.text last (fun method _ after _ => method_begins method after)
        (fun method present after remains => ?_) (show _ < limit - _ by omega)
        fun definitions (describes : List.Forall₂ Describes _ definitions) => ?_
      · obtain ⟨next, close, breaks⟩ := remains
        have inner := length_in_flat (f := MethodText.text) present
        exact method_read wide deep method (by omega) breaks (by omega)
      · exact .finish (show 0 < limit - _ - _ by omega)
          (block_end_run _ breaks (show 0 < 4 by decide)) (.members sighted describes)

theorem bases_apart (bases : Option (List BaseText)) (text : List Char) :
    Apart (ClassText.basesText bases ++ ':' :: text) := by
  cases bases with
  | none => exact apart_cons text (by decide)
  | some bases => exact apart_cons _ (by decide)

theorem definition_read (wide : size + 1 < limit) (deep : size + 1 < depth) (declared : ClassText)
    (short : declared.head.length + declared.body.length ≤ size) (breaks : Breaks rest 0) :
    Runs (classDefinition (nested limit (depth + 2)))
      ⟨' ' :: (declared.head ++ (declared.body ++ rest)), []⟩ ⟨rest, []⟩
      fun tree => ∃ superclasses body, Defines declared tree superclasses body := by
  have grasps : Grasps (nested limit (depth + 2)) size := nested_grasps wide (by omega)
  simp only [ClassText.head, List.length_append] at short
  have body := class_body_read wide deep declared (by omega) breaks
  obtain ⟨more, broken⟩ := (class_body_breaks declared breaks.apart).broken
  have colon : Shows (':' :: (declared.body ++ rest)) (.mark .colon) (declared.body ++ rest) :=
    Shows.colon (by simp [broken])
  obtain ⟨keyword, opens, shows_⟩ := name_shows declared.name.property
    (bases_apart declared.bases (declared.body ++ rest))
  have split : declared.head ++ (declared.body ++ rest) = declared.name.val ++
      (ClassText.basesText declared.bases ++ ':' :: (declared.body ++ rest)) := by
    simp [ClassText.head]
  rw [split]
  refine (Runs.name (leads_space shows_)).next ?_
  cases bases : declared.bases with
  | none =>
    refine (no_type_parameter (.ahead colon.now) (by simp)).next ?_
    refine (Runs.follow (.ahead colon.now)).next ?_
    rw [if_neg (by simp)]
    refine .known (body.bind fun tree held => ?_)
    obtain ⟨trees, rfl, filled⟩ := held
    exact .pure ⟨[], trees, rfl, bases ▸ .bare, filled⟩
  | some given =>
    rw [bases] at short
    simp only [ClassText.basesText, Option.elim, List.length_append, List.length_cons] at short
    have paren : Shows ('(' :: _) (.mark .leftParen) _ := Shows.leftParen
      (listed (given.map Subtype.val) ++ ')' :: ':' :: (declared.body ++ rest))
    have text : ClassText.basesText (some given) ++ ':' :: (declared.body ++ rest) =
        '(' :: (listed (given.map Subtype.val) ++ ')' :: ':' :: (declared.body ++ rest)) := by
      simp [ClassText.basesText]
    rw [text]
    refine (no_type_parameter (.ahead paren.now) (by simp)).next ?_
    refine (Runs.follow (.ahead paren.now)).next ?_
    rw [if_pos rfl]
    refine (bases_read grasps given (by omega)).bind fun found held => ?_
    obtain ⟨trees, rfl, refers⟩ := held
    refine .known (body.bind fun tree held => ?_)
    obtain ⟨body, rfl, filled⟩ := held
    exact .pure ⟨_, body, rfl, bases ▸ .given refers, filled⟩

theorem class_shows (declared : ClassText) (rest : List Char) :
    Shows (declared.text ++ rest) (.word "class" (some .class_))
      (' ' :: (declared.head ++ (declared.body ++ rest))) := by
  have split : declared.text ++ rest =
      ['c', 'l', 'a', 's', 's'] ++ ' ' :: (declared.head ++ (declared.body ++ rest)) := by
    simp [ClassText.text]
  rw [split]
  exact shows_word (by decide) (apart_cons _ (by decide))

def Class (declared : ClassText) (tree : SyntaxTree) : Prop :=
  ∃ superclasses body, Defines declared tree superclasses body

theorem class_read (wide : size + 1 < limit) (deep : size + 1 < depth) (declared : ClassText)
    (short : declared.text.length ≤ size) {gap : List Char} {level : Option Nat}
    (leads : Leads gap level) (breaks : Breaks rest 0) :
    Runs (statements (nested limit (depth + 2))) ⟨gap ++ (declared.text ++ rest), []⟩ ⟨rest, []⟩
      fun trees => ∃ tree, trees = [tree] ∧ Class declared tree := by
  have meets := leads (class_shows declared rest)
  simp only [ClassText.text, List.length_append] at short
  refine Runs.cursor.bind fun here lies => ?_
  rw [lies.ahead meets]
  refine (Runs.skip meets).bind fun _ _ => ?_
  refine (definition_read wide deep declared (by omega) breaks).bind fun tree defines => ?_
  exact .pure ⟨tree, rfl, defines⟩

theorem module_line_run {descent : Descent} {start stop : Place} {level : Option Nat}
    {lexeme : Lexeme} {after : List Char} (meets : Meets start.text level lexeme after)
    (goesOn : lexeme ≠ .ending) {holds : List SyntaxTree → Prop}
    (runs : Runs (statements descent) start stop holds) (found : List SyntaxTree) :
    Runs (moduleLine descent found) start stop
      (Sum.elim (fun next => ∃ trees, next = found ++ trees ∧ holds trees) fun _ => False) := by
  refine Runs.cursor.bind fun here lies => ?_
  rw [lies.ahead meets, if_neg goesOn]
  refine runs.bind fun trees held => .pure ⟨trees, ?_, held⟩
  rw [lies.extras meets, List.append_nil]

theorem module_end_run {descent : Descent} {place : Place} {level : Option Nat}
    {after : List Char} (meets : Meets place.text level .ending after) (found : List SyntaxTree) :
    Runs (moduleLine descent found) place place
      (Sum.elim (fun _ => False) (· = .phrase .module "" found)) := by
  refine Runs.cursor.bind fun here lies => ?_
  rw [lies.ahead meets, if_pos rfl]
  refine .pure ?_
  rw [lies.extras meets, List.append_nil]
  rfl

theorem leads_separator (blanks : Nat) : Leads (separator blanks) (some 0) := by
  have leads : Leads (separator blanks ++ List.replicate 0 ' ') (some 0) := leads_line blanks 0
  rwa [List.replicate_zero, List.append_nil] at leads

theorem separator_breaks (blanks : Nat) (classes : List ClassText) :
    Breaks (separator blanks ++ printed blanks classes) 0 := by
  cases classes with
  | nil =>
    rw [printed, List.flatMap_nil, List.append_nil]
    exact breaks_end blanks
  | cons declared classes =>
    rw [printed, List.flatMap_cons, List.append_assoc]
    exact breaks_lines blanks (class_shows declared _)

theorem classes_run (wide : size + 1 < limit) (deep : size + 1 < depth) (blanks : Nat)
    {classes : List ClassText} (short : (printed blanks classes).length ≤ size)
    {found : List SyntaxTree} {rounds : Nat} (bound : classes.length < rounds) :
    Runs (Reader.iterate (moduleLine (nested limit (depth + 2))) rounds found)
      ⟨separator blanks ++ printed blanks classes, []⟩ ⟨separator blanks, []⟩
      fun tree => ∃ trees, tree = .phrase .module "" (found ++ trees) ∧
        List.Forall₂ Class classes trees := by
  induction classes generalizing found rounds with
  | nil =>
    rw [printed, List.flatMap_nil, List.append_nil]
    refine .finish (by omega) (module_end_run (meets_end blanks) found) ⟨[], ?_, .nil⟩
    rw [List.append_nil]
  | cons declared classes ih =>
    rw [List.length_cons] at bound
    simp only [printed, List.flatMap_cons, List.length_append] at short
    have split : separator blanks ++ printed blanks (declared :: classes) = separator blanks ++
        (declared.text ++ (separator blanks ++ printed blanks classes)) := by
      simp [printed]
    have read := class_read wide deep declared (by omega) (leads_separator blanks)
      (separator_breaks blanks classes)
    rw [split]
    refine .again (by omega) (module_line_run (leads_separator blanks (class_shows declared _))
      (by simp) read found) fun next held => ?_
    obtain ⟨_, rfl, tree, rfl, told⟩ := held
    refine (ih (by rw [printed]; omega) (by omega)).mono ?_
    rintro module ⟨trees, rfl, others⟩
    exact ⟨tree :: trees, by simp, .cons told others⟩

theorem module_read (wide : size + 1 < limit) (deep : size + 1 < depth) (blanks : Nat)
    {classes : List ClassText} (short : (printed blanks classes).length ≤ size) :
    ∃ stop, Runs (module (nested limit (depth + 2))) ⟨printed blanks classes, []⟩ stop fun tree =>
      ∃ trees, tree = .phrase .module "" trees ∧ List.Forall₂ Class classes trees := by
  cases classes with
  | nil =>
    exact ⟨⟨[], []⟩, .finish (show 0 < limit by omega) (module_end_run meets_nothing [])
      ⟨[], rfl, .nil⟩⟩
  | cons first classes =>
    -- Only the first class has no line break before it.
    have count : (first :: classes).length ≤ (printed blanks (first :: classes)).length :=
      count_le_flat (fun declared => by
        rw [separator, List.length_append, List.length_replicate]
        omega) (first :: classes)
    have split : printed blanks (first :: classes) =
        first.text ++ (separator blanks ++ printed blanks classes) := by
      simp [printed]
    rw [split] at short count ⊢
    simp only [List.length_append, List.length_cons] at short count
    have read := class_read wide deep first (by omega) leads_nothing
      (separator_breaks blanks classes)
    refine ⟨⟨separator blanks, []⟩, ?_⟩
    refine .again (show 0 < limit by omega) (module_line_run (class_shows first _).now (by simp)
      read []) fun next held => ?_
    obtain ⟨_, rfl, tree, rfl, told⟩ := held
    have bound : classes.length < (nested limit (depth + 2)).limit - 1 := by
      show classes.length < limit - 1
      omega
    refine (classes_run wide deep blanks (by omega) bound).mono ?_
    rintro module ⟨trees, rfl, others⟩
    exact ⟨tree :: trees, rfl, .cons told others⟩

end

theorem printed_parses (blanks : Nat) (classes : List ClassText) :
    ∃ trees, parse? (String.ofList (printed blanks classes)) = some (.phrase .module "" trees) ∧
      List.Forall₂ Class classes trees := by
  -- The rounds and the depth that a text is given by its length are enough for all that is in it.
  generalize size : (printed blanks classes).length = length
  have descent : Descent.ofLength length = nested (length + 2) (3 * length + 4 + 2) := by
    rw [Descent.ofLength, show 3 * (length + 2) = 3 * length + 4 + 2 by omega, nested]
  obtain ⟨stop, runs⟩ := module_read (show length + 1 < length + 2 by omega)
    (show length + 1 < 3 * length + 4 by omega) blanks (Nat.le_of_eq size)
  obtain ⟨tree, after, read, -, trees, rfl, told⟩ :=
    runs (Cursor.ofText (printed blanks classes)) ⟨0, rfl⟩
  refine ⟨trees, ?_, told⟩
  rw [parse?, String.toList_ofList, size, descent]
  exact congrArg (Option.map Prod.fst) read

end SourceDiagram.ObjectModel
