import SourceDiagram.Proofs.ObjectModel.Methods

set_option autoImplicit false

namespace SourceDiagram.ObjectModel

open SourceDiagram.Model
open SourceDiagram.Syntax
open SourceDiagram.Syntax.Statement

theorem pass_begins {width : Nat} {after : List Char} (apart : Apart after) :
    Breaks (line width passWord ++ after) width := by
  rw [line, List.append_assoc]
  exact breaks_indent width (pass_shows apart)

section

variable {limit depth size : Nat} {indents : List Nat} {rest : List Char}

theorem pass_block_read {descent : Descent} {column outer : Nat} (enough : 1 < descent.limit)
    (breaks : Breaks rest outer) (left : outer < column) :
    Runs (Reader.iterate (blockLine descent) descent.limit [])
      ⟨line column passWord ++ rest, column :: indents⟩ ⟨rest, indents⟩
      (· = [.leaf .passStatement "pass"]) := by
  refine .again (by omega) (block_line_run [] (pass_begins breaks.apart)
    (pass_read column breaks (by omega))) fun next held => ?_
  obtain ⟨trees, rfl, tree, rfl, rfl⟩ := held
  exact .finish (by omega) (block_end_run _ breaks left) rfl

theorem method_body_breaks (method : MethodText) (apart : Apart rest) :
    Breaks (method.body ++ rest) 8 := by
  rw [MethodText.body]
  cases method.attributes with
  | nil => exact pass_begins apart
  | cons first others =>
    rw [if_neg (by simp), List.flatMap_cons, List.append_assoc]
    exact self_line_begins first _

theorem method_body_read (wide : size + 1 < limit) (deep : size + 1 < depth) (method : MethodText)
    (short : method.body.length ≤ size) {outer : Nat} (breaks : Breaks rest outer)
    (left : outer < 8) (right : indents.headD 0 < 8) :
    Runs (body (nested limit (depth + 1))) ⟨':' :: (method.body ++ rest), indents⟩ ⟨rest, indents⟩
      fun tree => ∃ trees, tree = .phrase .block "" trees ∧ Bodied method.attributes trees := by
  have grasps := nested_grasps wide deep
  have inside : (nested limit (depth + 1)).read .suite = suite (nested limit depth) := rfl
  refine body_run inside (method_body_breaks method breaks.apart) right ?_
  rw [MethodText.body] at short ⊢
  cases given : method.attributes with
  | nil =>
    rw [List.isEmpty_nil, if_pos rfl]
    refine (pass_block_read (show 1 < limit by omega) breaks left).mono ?_
    rintro trees rfl
    exact .pass rfl
  | cons first others =>
    rw [given, if_neg (by simp)] at short
    rw [if_neg (by simp)]
    have count := count_le_flat (f := MethodText.selfLine)
      (fun member => Nat.zero_lt_of_lt (self_line_length member)) (first :: others)
    refine lines_run MethodText.selfLine ⟨outer, by omega, breaks⟩
      (fun member _ after _ => self_line_begins member after)
      (fun member present after remains => ?_) (show _ < limit by omega)
      fun trees (told : List.Forall₂ (Line methodSights) _ trees) => ?_
    · obtain ⟨next, _, breaks⟩ := remains
      have outer := length_in_flat (f := MethodText.selfLine) present
      have inner := self_line_length member
      exact self_attribute_read grasps member (by omega) breaks
    · exact .finish (show 0 < limit - _ by omega) (block_end_run _ breaks left) (.lines told)

theorem no_type_parameter {descent : Descent} {place : Place} {lexeme : Lexeme}
    (follows : Follows place .unfinished lexeme) (other : lexeme ≠ .mark .leftBracket) :
    Runs (typeParameter? descent) place place (· = []) := by
  refine (Runs.follow follows).next ?_
  rw [if_neg other]
  exact .pure rfl

theorem function_read (wide : size + 1 < limit) (deep : size + 1 < depth) (method : MethodText)
    (short : method.signature.length + method.body.length ≤ size) {outer : Nat}
    (breaks : Breaks rest outer) (left : outer < 8) (right : indents.headD 0 < 8) :
    Runs (functionDefinition (nested limit (depth + 1)))
      ⟨' ' :: (method.signature ++ (method.body ++ rest)), indents⟩ ⟨rest, indents⟩
      fun tree => ∃ parameters body results, Function method tree parameters body results := by
  have grasps : Grasps (nested limit (depth + 1)) size := nested_grasps wide (by omega)
  simp only [MethodText.signature, List.length_append, List.length_cons] at short
  have body : Runs (Statement.body (nested limit (depth + 1))) _ ⟨rest, indents⟩ _ :=
    method_body_read wide deep method (by omega) breaks left right
  have paren : Shows ('(' :: _) (.mark .leftParen) _ := Shows.leftParen
    (listed (method.entries.map ParameterText.text) ++ ')' ::
      (MethodText.resultText method.result ++ ':' :: (method.body ++ rest)))
  have split : method.signature ++ (method.body ++ rest) = method.name.val ++
      '(' :: (listed (method.entries.map ParameterText.text) ++ ')' ::
        (MethodText.resultText method.result ++ ':' :: (method.body ++ rest))) := by
    simp [MethodText.signature]
  obtain ⟨keyword, opens, shows_⟩ := name_shows method.name.property
    (apart_cons (listed (method.entries.map ParameterText.text) ++ ')' ::
      (MethodText.resultText method.result ++ ':' :: (method.body ++ rest)))
      (show Delimits '(' by decide))
  rw [split]
  refine (Runs.name (leads_space shows_)).next ?_
  refine (no_type_parameter (.ahead paren.now) (by simp)).next ?_
  refine (parameters_read grasps (by omega)).bind fun tree held => ?_
  obtain ⟨parameters, rfl, takes⟩ := held
  obtain ⟨more, broken⟩ := (method_body_breaks method breaks.apart).broken
  have colon : Shows (':' :: (method.body ++ rest)) (.mark .colon) (method.body ++ rest) :=
    Shows.colon (by simp [broken])
  cases result : method.result with
  | none =>
    refine .refused (.ahead colon.now) (by simp) ?_
    refine body.bind fun tree held => ?_
    obtain ⟨trees, rfl, bodied⟩ := held
    exact .pure ⟨parameters, trees, _, rfl, takes, result ▸ .none, bodied⟩
  | some type =>
    have arrow : Meets (' ' :: '-' :: '>' :: ' ' :: (type.val ++ ':' :: (method.body ++ rest)))
        none (.mark .arrow) (' ' :: (type.val ++ ':' :: (method.body ++ rest))) :=
      leads_space (shows_arrow _)
    have ends : Ends (typeStops false) ⟨':' :: (method.body ++ rest), indents⟩ .unfinished :=
      ⟨apart_cons _ (by decide), .mark .colon, by decide, .ahead colon.now⟩
    have fits : type.val.length ≤ size := by
      simp only [result, MethodText.resultText, Option.elim, List.length_cons] at short
      omega
    refine .accepted arrow (.orElse _ ?_)
    refine (grasps.demand_type type.property fits ends).bind fun declared told => ?_
    refine body.bind fun tree held => ?_
    obtain ⟨trees, rfl, bodied⟩ := held
    exact .pure ⟨parameters, trees, _, rfl, takes, result ▸ .some told, bodied⟩

theorem def_shows (text : List Char) :
    Shows (['d', 'e', 'f'] ++ ' ' :: text) (.word "def" (some .def_)) (' ' :: text) :=
  shows_word (by decide) (apart_cons text (by decide))

theorem decorator_word {kind : MethodKind} {word : List Char}
    (decorated : MethodText.decorator? kind = some word) : IsName word := by
  cases kind with
  | instanceMethod => cases decorated
  | classMethod =>
    cases decorated
    decide
  | staticMethod =>
    cases decorated
    decide

def definitionLine (method : MethodText) (rest : List Char) : List Char :=
  indent 4 ++ (['d', 'e', 'f'] ++ ' ' :: (method.signature ++ (method.body ++ rest)))

theorem plain_split {method : MethodText} (bare : MethodText.decorator? method.kind = none)
    (rest : List Char) : method.text ++ rest = definitionLine method rest := by
  simp [MethodText.text, MethodText.decoratorLine, bare, line, definitionLine]

theorem decorated_split {method : MethodText} {word : List Char}
    (decorated : MethodText.decorator? method.kind = some word) (rest : List Char) :
    method.text ++ rest = indent 4 ++ ('@' :: (word ++ definitionLine method rest)) := by
  simp [MethodText.text, MethodText.decoratorLine, decorated, line, definitionLine]

theorem at_shows {word : List Char} (name : IsName word) (rest : List Char) :
    Shows ('@' :: (word ++ rest)) (.mark .at_) (word ++ rest) :=
  shows_sign (by simp) (name_next ⟨word, name⟩ rest)

theorem method_begins (method : MethodText) (rest : List Char) :
    Breaks (method.text ++ rest) 4 := by
  cases kind : MethodText.decorator? method.kind with
  | none =>
    rw [plain_split kind]
    exact breaks_indent 4 (def_shows _)
  | some word =>
    rw [decorated_split kind]
    exact breaks_indent 4 (at_shows (decorator_word kind) _)

theorem decorator_read {descent : Descent} (grasps : Grasps descent size) {word : List Char}
    (name : IsName word) {column : Nat} (breaks : Breaks rest column) :
    Runs (decorator descent) ⟨word ++ rest, indents⟩ ⟨rest, indents⟩
      (· = .phrase .decorator "" [.leaf .identifier (String.ofList word)]) := by
  have read := grasps.expression_name (line_ends breaks indents (by decide)) name leads_nothing
  obtain ⟨keyword, opens, shows_⟩ := name_shows name breaks.apart
  refine (Runs.demand shows_.now (by simp) read).next ?_
  refine (Runs.follow (breaks.lineEnd rfl)).next ?_
  exact (Runs.require rfl).bind fun _ _ => .pure rfl

theorem method_read (wide : size + 1 < limit) (deep : size + 1 < depth) (method : MethodText)
    (short : method.text.length ≤ size) {outer : Nat} (breaks : Breaks rest outer)
    (left : outer < 8) :
    Runs (statements (nested limit (depth + 1))) ⟨method.text ++ rest, 4 :: indents⟩
      ⟨rest, 4 :: indents⟩ fun trees => ∃ tree, trees = [tree] ∧ Describes method tree := by
  have grasps : Grasps (nested limit (depth + 1)) size := nested_grasps wide (by omega)
  have within : method.signature.length + method.body.length ≤ size := by
    simp only [MethodText.text, line, List.length_append] at short
    omega
  have function : Runs (functionDefinition (nested limit (depth + 1))) _ ⟨rest, 4 :: indents⟩ _ :=
    function_read wide deep method within breaks left (by simp)
  have define := leads_indent 4 (def_shows (method.signature ++ (method.body ++ rest)))
  cases kind : MethodText.decorator? method.kind with
  | none =>
    rw [plain_split kind]
    refine Runs.cursor.bind fun here lies => ?_
    rw [lies.ahead define]
    refine (Runs.skip define).bind fun _ _ => ?_
    refine function.bind fun tree held => ?_
    obtain ⟨parameters, body, results, function⟩ := held
    exact .pure ⟨tree, rfl, plain_describes function kind⟩
  | some word =>
    have name := decorator_word kind
    have mark := leads_indent 4 (at_shows name (definitionLine method rest))
    have line : Breaks (definitionLine method rest) 4 := breaks_indent 4 (def_shows _)
    have follows : Follows ⟨definitionLine method rest, 4 :: indents⟩ .unfinished
        (.word "def" (some .def_)) := .inside define rfl (by simp)
    -- The line break after the decorator is inside the block, so the definition follows at once.
    have decorated : Runs (decoratedDefinition (nested limit (depth + 1)))
        ⟨indent 4 ++ ('@' :: (word ++ definitionLine method rest)), 4 :: indents⟩
        ⟨rest, 4 :: indents⟩ (Describes method) := by
      refine (Runs.skip mark).bind fun _ _ => ?_
      refine (decorator_read grasps name line).next ?_
      refine Runs.next (.finish (show 0 < limit by omega)
        (.refused follows (by simp) (.pure rfl)) rfl) ?_
      refine (Runs.refuseWord follows (by simp [Lexeme.keyword?])).next ?_
      refine (Runs.refuseWord follows (by simp [Lexeme.keyword?])).next ?_
      refine Runs.bind ((Runs.acceptWord follows define).next (.require rfl)) fun _ _ => ?_
      refine function.bind fun tree held => ?_
      obtain ⟨parameters, body, results, function⟩ := held
      exact .pure (decorated_describes function kind)
    rw [decorated_split kind]
    refine Runs.cursor.bind fun here lies => ?_
    rw [lies.ahead mark]
    exact decorated.bind fun tree describes => .pure ⟨tree, rfl, describes⟩

end

end SourceDiagram.ObjectModel
