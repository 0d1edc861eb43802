import SourceDiagram.Proofs.ObjectModel.Expressions

set_option autoImplicit false

namespace SourceDiagram.ObjectModel

open SourceDiagram.Syntax
open SourceDiagram.Syntax.Expression

def literalKinds : List Kind :=
  [.integer, .stringLiteral, .noneLiteral, .trueLiteral, .falseLiteral, .ellipsis]

theorem told_literal {kind : Kind} (literal : kind ∈ literalKinds) (text : List Char) :
    Told text (.leaf kind (String.ofList text)) := by
  have value : Expr.ofTree (.leaf kind (String.ofList text)) = .literal (String.ofList text) := by
    rw [SyntaxTree.leaf, of_tree_node]
    simp only [literalKinds, List.mem_cons, List.not_mem_nil, or_false] at literal
    rcases literal with rfl | rfl | rfl | rfl | rfl | rfl <;> rfl
  simp only [literalKinds, List.mem_cons, List.not_mem_nil, or_false] at literal
  refine ⟨?_, ?_, by rw [value, Expr.text, String.toList_ofList]⟩
  · rcases literal with rfl | rfl | rfl | rfl | rfl | rfl <;> rfl
  · rcases literal with rfl | rfl | rfl | rfl | rfl | rfl <;> exact calm_leaf (by decide) rfl

theorem constant_shows {text : String} (known : text ∈ ["None", "True", "False", "..."])
    {rest : List Char} (apart : Apart rest) : ∃ lexeme, Starts lexeme ∧
      Shows (text.toList ++ rest) lexeme rest ∧
      (lexeme = .word text (some .none_) ∨ lexeme = .word text (some .true_) ∨
        lexeme = .word text (some .false_) ∨ lexeme = .mark .ellipsis ∧ text = "...") := by
  simp only [List.mem_cons, List.not_mem_nil, or_false] at known
  rcases known with rfl | rfl | rfl | rfl
  · exact ⟨_, .absent _, shows_word (by decide) apart, .inl rfl⟩
  · exact ⟨_, .truth _, shows_word (by decide) apart, .inr (.inl rfl)⟩
  · exact ⟨_, .falsity _, shows_word (by decide) apart, .inr (.inr (.inl rfl))⟩
  · exact ⟨_, .ellipsis, shows_ellipsis rest, .inr (.inr (.inr ⟨rfl, rfl⟩))⟩

theorem literal_starting {text : List Char} (literal : IsLiteral text) : Starting text := by
  intro rest parted
  cases literal with
  | integer integer => exact ⟨_, _, .integer _, shows_integer integer parted⟩
  | quoted known plain =>
    have shows_ := shows_quote known plain parted.apart
    exact ⟨_, _, .quote _, by simpa using shows_⟩
  | constant known =>
    obtain ⟨lexeme, starts, shows_, -⟩ := constant_shows known parted.apart
    exact ⟨lexeme, rest, starts, shows_⟩

theorem reference_opens {expr : Expr} {rest : List Char} : Spelled .reference expr → Apart rest →
    ∃ lexeme after, Opens lexeme ∧ Shows (expr.letters ++ rest) lexeme after
  | .name name, apart => by
    obtain ⟨keyword, opens, shows_⟩ := name_shows name apart
    exact ⟨_, _, opens, by rwa [letters_name]⟩
  | .member value _, _ => by
    rw [letters_member, List.append_assoc]
    exact reference_opens value (apart_cons _ (by decide))
  | .subscript value _ _, _ => by
    rw [letters_subscript, List.append_assoc]
    exact reference_opens value (apart_cons _ (by decide))

theorem operand_starting {expr : Expr} (spelled : Spelled .operand expr) :
    Starting expr.letters := by
  cases spelled with
  | reference spelled =>
    intro rest parted
    obtain ⟨lexeme, after, opens, shows_⟩ := reference_opens spelled parted.apart
    exact ⟨lexeme, after, .opens opens, shows_⟩
  | list =>
    intro rest parted
    rw [letters_list]
    exact ⟨_, _, .opens .bracket, shows_bracket (by simp) _⟩
  | literal literal => exact letters_literal _ ▸ literal_starting literal

theorem bars_parted (operands : List (List Char)) {rest : List Char} (parted : Parted rest) :
    Parted (operands.flatMap (fun operand => ' ' :: '|' :: ' ' :: operand) ++ rest) := by
  cases operands with
  | nil => exact parted
  | cons operand operands => exact parted_cons _ (by decide) (by decide)

theorem whole_starting {expr : Expr} (spelled : Spelled .whole expr) : Starting expr.letters := by
  cases spelled with
  | @union first operands firstSpelled _ =>
    intro rest parted
    obtain ⟨lexeme, after, starts, shows_⟩ :=
      operand_starting firstSpelled (bars_parted (operands.map Expr.letters) parted)
    rw [letters_union, List.map_cons, alternatives_cons, List.append_assoc]
    exact ⟨lexeme, after, starts, shows_⟩

theorem spelled_starting {part : Part} {expr : Expr} (spelled : Spelled part expr) :
    Starting expr.letters := by
  cases part with
  | reference => exact operand_starting (.reference spelled)
  | operand => exact operand_starting spelled
  | whole => exact whole_starting spelled

theorem written_starting {part : Part} {text : List Char} (written : Written part text) :
    Starting text := by
  obtain ⟨expr, spelled, rfl, -⟩ := written_spelled written
  exact spelled_starting spelled

section

variable {descent : Descent} {context : Context} {indents : List Nat} {gap rest : List Char}
  {level : Option Nat}

theorem string_read {delimiter : Char} (known : delimiter ∈ ['\'', '"']) {content : List Char}
    (plain : IsContent delimiter content) (leads : Leads gap level)
    (positive : 0 < descent.limit) (apart : Apart rest) :
    Runs (stringLiteral descent)
      ⟨gap ++ (delimiter :: (content ++ [delimiter]) ++ rest), indents⟩ ⟨rest, indents⟩
      (· = .leaf .stringLiteral (String.ofList (delimiter :: (content ++ [delimiter])))) := by
  have split : delimiter :: (content ++ [delimiter]) ++ rest =
      delimiter :: (content ++ delimiter :: rest) := by simp
  have meets := leads (shows_quote known plain apart)
  rw [split]
  refine Runs.cursor.bind fun before lies => ?_
  rw [lies.ahead meets]
  obtain ⟨here, ahead, stop⟩ := quote_ahead lies meets
  have scanned := content_scanned known plain rest false 0
  refine .done positive ?_
  simp only [ahead, scanned]
  -- The text that is passed is known from the cursor only, and not from the place.
  have passed : before.here.take (before.stop + (0 + content.length + 1) - before.start) =
      delimiter :: (content ++ [delimiter]) := by
    have size : before.stop + (0 + content.length + 1) - before.start =
        (delimiter :: (content ++ [delimiter])).length := by
      rw [stop, List.length_cons, List.length_append, List.length_singleton]
      omega
    rw [size, here, ← split, List.take_left]
  intro cursor there
  refine ⟨_, _, rfl, ⟨_, by rw [lies.indents]⟩, ?_⟩
  exact congrArg (fun text => SyntaxTree.leaf .stringLiteral (String.ofList text)) passed

-- No other string follows where an operand ends, so the string is not joined with one.
theorem strings_read {delimiter : Char} (known : delimiter ∈ ['\'', '"']) {content : List Char}
    (plain : IsContent delimiter content) (leads : Leads gap level)
    (positive : 0 < descent.limit) (ends : Ends (.mark .bar :: stops) ⟨rest, indents⟩ context) :
    Runs (strings descent context)
      ⟨gap ++ (delimiter :: (content ++ [delimiter]) ++ rest), indents⟩ ⟨rest, indents⟩
      (· = .leaf .stringLiteral (String.ofList (delimiter :: (content ++ [delimiter])))) := by
  obtain ⟨lexeme, member, follows⟩ := ends.stop
  refine Runs.cursor.bind fun before _ => ?_
  refine (string_read known plain leads positive ends.apart).next ?_
  refine .finish positive ?_ rfl
  rcases List.mem_cons.mp member with rfl | member
  · exact (Runs.lead follows (by simp)).next (.pure rfl)
  · rcases mem_stops member with rfl | rfl | rfl | rfl | rfl | rfl <;>
      exact (Runs.lead follows (by simp)).next (.pure rfl)

theorem literal_read {text : List Char} (literal : IsLiteral text) (leads : Leads gap level)
    (positive : 0 < descent.limit) (ends : Ends (.mark .bar :: stops) ⟨rest, indents⟩ context) :
    Runs (atom descent context) ⟨gap ++ (text ++ rest), indents⟩ ⟨rest, indents⟩ (Told text) := by
  have parted := ends.parted (List.Subset.refl _)
  cases literal with
  | integer integer =>
    have meets := leads (shows_integer integer parted)
    refine Runs.cursor.bind fun before lies => ?_
    rw [lies.ahead meets]
    exact (Runs.skip meets).bind fun _ _ => .pure (told_literal (by decide) text)
  | @quoted delimiter content known plain =>
    have shows_ := shows_quote known plain parted.apart
    have split : delimiter :: (content ++ [delimiter]) ++ rest =
        delimiter :: (content ++ delimiter :: rest) := by simp
    have read := (strings_read known plain leads positive ends).mono fun tree same =>
      same ▸ told_literal (by decide) (delimiter :: (content ++ [delimiter]))
    rw [split] at read ⊢
    refine Runs.cursor.bind fun before lies => ?_
    rw [lies.ahead (leads shows_)]
    exact read
  | @constant text known =>
    obtain ⟨lexeme, -, shows_, found⟩ := constant_shows known parted.apart
    have meets := leads shows_
    refine Runs.cursor.bind fun before lies => ?_
    rw [lies.ahead meets]
    have told {kind : Kind} (literal : kind ∈ literalKinds) : Told text.toList (.leaf kind text) := by
      simpa using told_literal literal text.toList
    rcases found with rfl | rfl | rfl | ⟨rfl, rfl⟩ <;>
      refine Runs.bind (Runs.skip meets) fun _ _ => .pure (told (by decide))

theorem literal_operand {text : List Char} (literal : IsLiteral text)
    (positive : 0 < descent.limit) : ReadsOperand descent Told text := by
  intro context gap rest indents leads ends
  obtain ⟨lexeme, after, starts, shows_⟩ :=
    literal_starting literal (ends.parted (List.Subset.refl _))
  exact primary_of_atom starts (leads shows_) positive ends
    (literal_read literal leads positive ends)

end

end SourceDiagram.ObjectModel
