import SourceDiagram.ObjectModel.Fragment
import SourceDiagram.Proofs.ObjectModel.Modules
import SourceDiagram.Proofs.ObjectModel.UnreadTypes

set_option autoImplicit false

namespace SourceDiagram.ObjectModel

open SourceDiagram.Syntax
open SourceDiagram.Syntax.Statement

section

variable {text : List Char} {level : Option Nat} {lexeme : Lexeme} {after : List Char}
  (meets : Meets (text ++ ['\n']) level lexeme after) (other : lexeme ≠ .ending)

include meets other

theorem only_statement {holds : SyntaxTree → Prop}
    (reads : Runs (statements (Descent.ofLength (text.length + 1))) ⟨text ++ ['\n'], []⟩
      ⟨['\n'], []⟩ fun trees => ∃ tree, trees = [tree] ∧ holds tree)
    (named : ∀ tree, holds tree → tree.kind ≠ .token) :
    ∃ tree, onlyStatement? (String.ofList (text ++ ['\n'])) = some tree ∧ holds tree := by
  have run : Runs (module (Descent.ofLength (text.length + 1))) ⟨text ++ ['\n'], []⟩ ⟨['\n'], []⟩
      fun tree => ∃ statement, tree = .phrase .module "" [statement] ∧ holds statement := by
    refine .again (Nat.succ_pos _) (module_line_run meets other reads []) fun next held => ?_
    obtain ⟨_, rfl, tree, rfl, held⟩ := held
    exact .finish (Nat.succ_pos _) (module_end_run (meets_end 0) _) ⟨tree, rfl, held⟩
  obtain ⟨_, last, read, -, tree, rfl, held⟩ := run (Cursor.ofText (text ++ ['\n'])) ⟨0, rfl⟩
  have parsed : parse? (String.ofList (text ++ ['\n'])) = some (.phrase .module "" [tree]) := by
    rw [parse?, String.toList_ofList, List.length_append]
    exact congrArg (Option.map Prod.fst) read
  refine ⟨tree, ?_, held⟩
  rw [onlyStatement?, parsed]
  simp [SyntaxTree.named, SyntaxTree.phrase, named tree held]

theorem no_statement
    (fails : Fails (statements (Descent.ofLength (text.length + 1))) ⟨text ++ ['\n'], []⟩) :
    onlyStatement? (String.ofList (text ++ ['\n'])) = none := by
  have line : Fails (moduleLine (Descent.ofLength (text.length + 1)) []) ⟨text ++ ['\n'], []⟩ := by
    refine Runs.cursor.fails fun here lies => ?_
    rw [lies.ahead meets, if_neg other]
    exact fails.bind _
  have run : Fails (module (Descent.ofLength (text.length + 1))) ⟨text ++ ['\n'], []⟩ := line.loop
  have read := run (Cursor.ofText (text ++ ['\n'])) ⟨0, rfl⟩
  have parsed : parse? (String.ofList (text ++ ['\n'])) = none := by
    rw [parse?, String.toList_ofList, List.length_append]
    exact congrArg (Option.map Prod.fst) read
  rw [onlyStatement?, parsed]
  rfl

end

def annotated (text : List Char) : List Char :=
  'x' :: ':' :: ' ' :: text

theorem is_name_x : IsName ['x'] := by
  decide

section

variable {limit depth : Nat} {text : List Char}

theorem annotated_shows (text : List Char) :
    Shows (annotated text) (.word "x" none) (':' :: ' ' :: text) :=
  shows_word is_name_x.word (apart_cons (' ' :: text) (show Delimits ':' by decide))

theorem breaks_line : Breaks ['\n'] 0 :=
  breaks_end 0

theorem annotated_read (wide : 2 < limit) (deep : 2 < depth) :
    Runs (Expression.series (nested limit depth) .line) ⟨annotated text, []⟩
      ⟨':' :: ' ' :: text, []⟩ (· = ⟨[.leaf .identifier "x"], false⟩) := by
  have grasps : Grasps (nested limit depth) 1 := nested_grasps wide deep
  have ends : Ends [.mark .colon, .mark .assign, .lineEnd] ⟨':' :: ' ' :: text, []⟩ .line :=
    ⟨apart_cons _ (by decide), _, by decide, .ahead (Shows.colon (by simp)).now⟩
  have name := grasps.expression_name (ends.mono (by decide)) is_name_x leads_nothing
  refine (single_read (show 0 < limit by omega) name ends).mono ?_
  rintro found ⟨tree, rfl, rfl⟩
  rfl

theorem declaration_read (wide : 2 < limit) (deep : 2 < depth)
    (read : Runs ((nested limit depth).demand (.typeTerm .line true)) ⟨' ' :: (text ++ ['\n']), []⟩
      ⟨['\n'], []⟩ (Told text)) :
    Runs (statements (nested limit depth)) ⟨annotated text ++ ['\n'], []⟩ ⟨['\n'], []⟩
      fun trees => ∃ tree, trees = [tree] ∧ ∃ declared, Told text declared ∧
        tree = .phrase .expressionStatement ""
          [assignment [(.left, .leaf .identifier "x"), (.declared, declared)]] := by
  have meets := (annotated_shows (text ++ ['\n'])).now
  have colon : Meets (':' :: ' ' :: (text ++ ['\n'])) none (.mark .colon)
      (' ' :: (text ++ ['\n'])) :=
    (Shows.colon (by simp)).now
  refine simple_statement_read (.name "x") meets (show 0 < limit by omega) breaks_line ?_
  refine Runs.cursor.bind fun here lies => ?_
  rw [lies.ahead meets]
  refine (annotated_read wide deep).next ?_
  refine (Runs.follow (.ahead colon)).next ?_
  refine (target_of_read rfl).next ?_
  refine (Runs.skip colon).bind fun _ _ => ?_
  refine read.bind fun declared told => ?_
  exact .refused (breaks_line.lineEnd rfl) (by simp) (.pure ⟨declared, told, rfl⟩)

theorem declaration_halts (wide : 2 < limit) (deep : 2 < depth)
    (halts : Leaves ((nested limit depth).demand (.typeTerm .line true))
      ⟨' ' :: (text ++ ['\n']), []⟩ (AtBracket [])) :
    Leaves (expressionStatement (nested limit depth)) ⟨annotated text ++ ['\n'], []⟩
      (AtBracket []) := by
  have colon : Meets (':' :: ' ' :: (text ++ ['\n'])) none (.mark .colon)
      (' ' :: (text ++ ['\n'])) :=
    (Shows.colon (by simp)).now
  refine Runs.cursor.leaves fun here lies => ?_
  rw [lies.ahead (annotated_shows (text ++ ['\n'])).now]
  refine (annotated_read wide deep).leaves fun found same => ?_
  refine (Runs.follow (.ahead colon)).leaves fun lexeme mark => ?_
  rw [same, mark]
  refine (target_of_read rfl).leaves fun left _ => ?_
  refine (Runs.skip colon).leaves fun _ _ => ?_
  refine halts.bind ?_
  rintro declared stop ⟨rest, rfl⟩
  have bracket := (Shows.leftBracket rest).now
  refine (Runs.refuse (.ahead bracket) (by simp)).leaves fun valued same => ?_
  rw [same, if_neg (by simp)]
  exact .pure ⟨rest, rfl⟩

theorem line_fails {descent : Descent} {start : Place} {indents : List Nat}
    (simple : Leaves (simple descent) start (AtBracket indents)) :
    Fails (simpleLine descent) start := by
  refine Leaves.fails (simple.bind ?_)
  rintro tree stop ⟨rest, rfl⟩
  refine Fails.leaves (Fails.loop ?_)
  refine (Runs.follow (.ahead (Shows.leftBracket rest).now)).fails fun lexeme same => ?_
  rw [same]
  exact fails_failure

theorem declaration_fails (wide : 2 < limit) (deep : 2 < depth)
    (halts : Leaves ((nested limit depth).demand (.typeTerm .line true))
      ⟨' ' :: (text ++ ['\n']), []⟩ (AtBracket [])) :
    Fails (statements (nested limit depth)) ⟨annotated text ++ ['\n'], []⟩ := by
  have meets := (annotated_shows (text ++ ['\n'])).now
  have statement := declaration_halts wide deep halts
  have simple : Leaves (simple (nested limit depth)) ⟨annotated text ++ ['\n'], []⟩
      (AtBracket []) := by
    refine Runs.cursor.leaves fun here lies => ?_
    rw [lies.ahead meets]
    exact statement
  have line := line_fails simple
  refine Runs.cursor.fails fun here lies => ?_
  rw [lies.ahead meets]
  exact line

end

def derived (text : List Char) : List Char :=
  ['c', 'l', 'a', 's', 's'] ++ ' ' :: 'X' :: '(' :: (text ++ ')' :: ':' :: ' ' :: passWord)

section

variable {limit depth : Nat} {text : List Char}

theorem derived_shows (text rest : List Char) :
    Shows (derived text ++ rest) (.word "class" (some .class_))
      (' ' :: 'X' :: '(' :: (text ++ ')' :: ':' :: ' ' :: (passWord ++ rest))) := by
  have split : derived text ++ rest = ['c', 'l', 'a', 's', 's'] ++
      ' ' :: 'X' :: '(' :: (text ++ ')' :: ':' :: ' ' :: (passWord ++ rest)) := by
    simp [derived]
  rw [split]
  exact shows_word (by decide) (apart_cons _ (by decide))

theorem base_read {descent : Descent} {indents : List Nat} {rest : List Char}
    (positive : 0 < descent.limit) (starting : Starting text) (reads : Reads descent Told text) :
    Runs (Expression.argumentList descent false) ⟨'(' :: (text ++ ')' :: rest), indents⟩
      ⟨rest, indents⟩
      fun tree => ∃ base, tree = .phrase .argumentList "" [base] ∧ Told text base := by
  have read : Runs (Expression.argumentList descent false)
      ⟨'(' :: (listed [text] ++ ')' :: rest), indents⟩ ⟨rest, indents⟩ _ :=
    arguments_read (List.forall_mem_singleton.mpr starting) (List.forall_mem_singleton.mpr reads)
      positive
  have single : listed [text] = text := by simp [listed]
  rw [single] at read
  refine read.mono ?_
  rintro tree ⟨trees, rfl, told⟩
  cases told with
  | cons told none => cases none; exact ⟨_, rfl, told⟩

theorem pass_body_read (positive : 0 < limit) :
    Runs (body (nested limit (depth + 1))) ⟨':' :: ' ' :: (passWord ++ ['\n']), []⟩ ⟨['\n'], []⟩
      fun _ => True := by
  have colon : Shows (':' :: ' ' :: (passWord ++ ['\n'])) (.mark .colon)
      (' ' :: (passWord ++ ['\n'])) :=
    Shows.colon (by simp)
  have meets : Meets (' ' :: (passWord ++ ['\n'])) none (.word "pass" (some .pass_)) ['\n'] :=
    leads_space (pass_shows breaks_line.apart)
  refine (Runs.expect colon.now).bind fun _ _ => ?_
  show Runs (suite (nested limit depth)) _ _ _
  refine Runs.cursor.bind fun here lies => ?_
  have column := lies.column meets
  have unmoved : here.isIndented = false := by rw [Cursor.isIndented, column]
  have unbroken : here.gap.isBroken = false := by rw [Gap.isBroken, column]; rfl
  rw [unmoved, if_neg (by simp), unbroken, if_neg (by simp)]
  have line : Runs (simpleLine (nested limit depth)) ⟨' ' :: (passWord ++ ['\n']), []⟩
      ⟨['\n'], []⟩ _ :=
    simple_line_run positive breaks_line (pass_statement_read leads_space breaks_line.apart)
  exact line.bind fun _ _ => .pure trivial

theorem derivation_read (positive : 0 < limit) (starting : Starting text)
    (reads : Reads (nested limit (depth + 1)) Told text) :
    Runs (statements (nested limit (depth + 1))) ⟨derived text ++ ['\n'], []⟩ ⟨['\n'], []⟩
      fun trees => ∃ tree, trees = [tree] ∧ ∃ base body, Told text base ∧
        tree = .node .classDefinition "" [(.name, .leaf .identifier "X"),
          (.superclasses, .phrase .argumentList "" [base]), (.body, body)] := by
  have meets := (derived_shows text ['\n']).now
  have name := leads_space (shows_word (show IsWord ['X'] by decide)
    (apart_cons (text ++ ')' :: ':' :: ' ' :: (passWord ++ ['\n'])) (show Delimits '(' by decide)))
  have paren := (Shows.leftParen (text ++ ')' :: ':' :: ' ' :: (passWord ++ ['\n']))).now
  refine Runs.cursor.bind fun here lies => ?_
  rw [lies.ahead meets]
  refine (Runs.skip meets).bind fun _ _ => ?_
  refine Runs.bind ?_ fun tree (held : ∃ base body, Told text base ∧
    tree = .node .classDefinition "" [(.name, .leaf .identifier "X"),
      (.superclasses, .phrase .argumentList "" [base]), (.body, body)]) => .pure ⟨tree, rfl, held⟩
  refine (Runs.name name).next ?_
  refine (no_type_parameter (.ahead paren) (by simp)).next ?_
  refine (Runs.follow (.ahead paren)).next ?_
  rw [if_pos rfl]
  refine (base_read positive starting reads).bind fun arguments held => ?_
  obtain ⟨base, rfl, told⟩ := held
  exact .known ((pass_body_read positive).bind fun body _ => .pure ⟨base, body, told, rfl⟩)

end

section

variable {expr : Expr}

theorem type_source (text : String) : "x: " ++ text ++ "\n" =
    String.ofList (annotated text.toList ++ ['\n']) := by
  apply String.toList_injective
  simp [annotated]

theorem base_source (text : String) : "class X(" ++ text ++ "): pass\n" =
    String.ofList (derived text.toList ++ ['\n']) := by
  apply String.toList_injective
  simp [derived, passWord]

theorem told_unparses {tree : SyntaxTree} (told : Told expr.letters tree) :
    (Expr.ofTree tree).text = expr.text :=
  String.toList_injective told.spelled

theorem base_unparses (spelled : Spelled .whole expr) :
    ∃ base, baseExpr? expr.text = some base ∧ base.text = expr.text := by
  have size : expr.letters.length < (derived expr.letters).length := by
    simp [derived]
    omega
  have reads := spelled_understood spelled ((derived expr.letters).length + 1 + 2)
    (3 * ((derived expr.letters).length + 1) + 5 + 1) (by omega) (by omega)
  have read := derivation_read (Nat.succ_pos _) (whole_starting spelled) reads
  obtain ⟨tree, only, base, body, told, rfl⟩ :=
    only_statement (derived_shows expr.letters ['\n']).now (by simp) read
      (by rintro tree ⟨base, body, -, rfl⟩; simp)
  refine ⟨.ofTree base, ?_, told_unparses told⟩
  have named : base.kind ≠ .token := by
    have part := told.part
    intro token
    simp [SyntaxTree.isPart, token] at part
  rw [baseExpr?, base_source, ← Expr.letters, only]
  simp [SyntaxTree.field?, SyntaxTree.named, SyntaxTree.phrase, named]

theorem line_parted : Parted ['\n'] :=
  parted_cons [] (by decide) (by decide)

theorem type_unparses (spelled : Spelled .whole expr) (read : expr.reading ≠ .refused) :
    ∃ type, typeExpr? expr.text = some type ∧ type.text = expr.text := by
  have size : expr.letters.length + 3 = (annotated expr.letters).length := by simp [annotated]
  have reads := spelled_typed spelled ((annotated expr.letters).length + 1 + 2) read
    (3 * ((annotated expr.letters).length + 1 + 2)) (by omega) (by omega)
  obtain ⟨lexeme, after, starts, shows_⟩ := whole_starting spelled line_parted
  have type := Runs.demand shows_.spaced starts.valid
    (reads .line true [' '] ['\n'] [] leads_space (line_ends breaks_line [] (by decide)))
  have read := declaration_read (by omega) (by omega) type
  obtain ⟨tree, only, declared, told, rfl⟩ :=
    only_statement (annotated_shows (expr.letters ++ ['\n'])).now (by simp) read
      (by rintro tree ⟨declared, -, rfl⟩; simp [SyntaxTree.phrase])
  refine ⟨.ofTree declared, ?_, told_unparses told⟩
  rw [typeExpr?, type_source, ← Expr.letters, only]
  simp [SyntaxTree.field?, SyntaxTree.named, SyntaxTree.phrase, assignment]

theorem type_unread (spelled : Spelled .whole expr) (refused : expr.reading = .refused) :
    typeExpr? expr.text = none := by
  have size : expr.letters.length + 3 = (annotated expr.letters).length := by simp [annotated]
  have halts := spelled_unread spelled ((annotated expr.letters).length + 1 + 2) refused
    (3 * ((annotated expr.letters).length + 1 + 2)) (by omega) (by omega)
  obtain ⟨lexeme, after, starts, shows_⟩ := whole_starting spelled line_parted
  have type := Leaves.demand shows_.spaced starts.valid
    (halts .line true [' '] ['\n'] [] leads_space line_parted)
  have only := no_statement (annotated_shows (expr.letters ++ ['\n'])).now (by simp)
    (declaration_fails (by omega) (by omega) type)
  rw [typeExpr?, type_source, ← Expr.letters, only]
  rfl

-- As a base, what is spelled out always reads back as its own text. As a type it does so unless a
-- name with arguments that begins a type is given more arguments, where no type is read at all.
theorem unparses_unless_indexed_again (spelled : Spelled .whole expr) :
    (∃ base, baseExpr? expr.text = some base ∧ base.text = expr.text) ∧
    ((∃ type, typeExpr? expr.text = some type ∧ type.text = expr.text) ↔
      expr.reading ≠ .refused) ∧
    (expr.reading = .refused → typeExpr? expr.text = none) := by
  refine ⟨base_unparses spelled, ⟨?_, type_unparses spelled⟩, type_unread spelled⟩
  rintro ⟨type, read, -⟩ refused
  rw [type_unread spelled refused] at read
  cases read

end

-- Members before the arguments make an expression of `m.Box[K][V]`, and `None` takes the rest.
theorem boxes_unparse : ∃ type base,
    typeExpr? "Box[K].Key | m.Box[K][V] | None" = some type ∧
    baseExpr? "Box[K].Key | m.Box[K][V] | None" = some base ∧
    type.text = "Box[K].Key | m.Box[K][V] | None" ∧ base.text = type.text := by
  have key : Spelled .reference (.member (.subscript (.name "Box") [.name "K"]) "Key") :=
    .member (.subscript (.name (by decide)) (by simp) (.argument (by decide))) (by decide)
  have box : Spelled .reference
      (.subscript (.subscript (.member (.name "m") "Box") [.name "K"]) [.name "V"]) :=
    .subscript (.subscript (.member (.name (by decide)) (by decide)) (by simp) (.argument (by decide)))
      (by simp) (.argument (by decide))
  have none : Spelled .operand (.literal "None") := .literal (.constant (by simp))
  have boxes := Spelled.union (.reference key)
    (List.forall_mem_cons.mpr ⟨.reference box, List.forall_mem_singleton.mpr none⟩)
  obtain ⟨⟨base, asBase, baseText⟩, types, -⟩ := unparses_unless_indexed_again boxes
  obtain ⟨type, asType, typeText⟩ := types.mpr (by decide)
  exact ⟨type, base, asType, asBase, typeText, baseText.trans typeText.symm⟩

-- A name with arguments takes no more of them as a type, and no string holds the end of the text.
theorem indexed_again_unread :
    Spelled .whole (.subscript (.subscript (.name "a") [.name "b"]) [.name "c"]) ∧
    typeExpr? "a[b][c]" = none ∧ typeExpr? "'\x00'" = none ∧ baseExpr? "'\x00'" = none := by
  refine ⟨?_, Option.isNone_iff_eq_none.mp (by decide +kernel),
    Option.isNone_iff_eq_none.mp (by decide +kernel),
    Option.isNone_iff_eq_none.mp (by decide +kernel)⟩
  exact .alone (.reference (.subscript (.subscript (.name (by decide)) (by simp)
    (.argument (by decide))) (by simp) (.argument (by decide))))

end SourceDiagram.ObjectModel
