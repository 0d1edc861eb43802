import Mathlib.Data.List.Forall2
import SourceDiagram.Proofs.Syntax.Run

set_option autoImplicit false

namespace SourceDiagram.Syntax

open SourceDiagram.Syntax.Statement

structure Breaks (text : List Char) (column : Nat) : Prop where
  broken : ∃ more, text = '\n' :: more
  meets : ∃ lexeme rest, Meets text (some column) lexeme rest

def indent (width : Nat) : List Char :=
  '\n' :: List.replicate width ' '

theorem leads_indent (width : Nat) : Leads (indent width) (some width) :=
  leads_line 0 width

theorem breaks_indent (width : Nat) {here rest : List Char} {lexeme : Lexeme}
    (shows_ : Shows here lexeme rest) : Breaks (indent width ++ here) width :=
  ⟨⟨_, rfl⟩, _, _, leads_indent width shows_⟩

theorem breaks_lines (count : Nat) {here rest : List Char} {lexeme : Lexeme}
    (shows_ : Shows here lexeme rest) : Breaks (List.replicate (count + 1) '\n' ++ here) 0 :=
  ⟨⟨_, rfl⟩, _, _, shows_.lined count 0⟩

theorem breaks_end (count : Nat) : Breaks (List.replicate (count + 1) '\n') 0 :=
  ⟨⟨_, rfl⟩, _, _, meets_end count⟩

theorem Breaks.apart {text : List Char} {column : Nat} (breaks : Breaks text column) :
    Apart text := by
  obtain ⟨more, rfl⟩ := breaks.broken
  exact apart_cons more (by decide)

theorem Breaks.lineEnd {place : Place} {context : Context} {column : Nat}
    (breaks : Breaks place.text column) (line : context.lineEnds = true) :
    Follows place context .lineEnd := by
  obtain ⟨lexeme, rest, meets⟩ := breaks.meets
  exact .lineEnd meets line

section

variable {descent : Descent} {indents : List Nat} {column outer : Nat} {text rest : List Char}

theorem block_line_run {stop : Place} {holds : List SyntaxTree → Prop} (found : List SyntaxTree)
    (breaks : Breaks text column)
    (runs : Runs (statements descent) ⟨text, column :: indents⟩ stop holds) :
    Runs (blockLine descent found) ⟨text, column :: indents⟩ stop
      (Sum.elim (fun next => ∃ trees, next = found ++ trees ∧ holds trees) fun _ => False) := by
  obtain ⟨lexeme, after, meets⟩ := breaks.meets
  refine Runs.cursor.bind fun here lies => ?_
  have stays : here.isDedented = false := by
    rw [Cursor.isDedented, Cursor.indent, lies.column meets, lies.indents]
    simp
  rw [stays, if_neg (by simp)]
  refine runs.bind fun trees held => .pure ⟨trees, ?_, held⟩
  rw [lies.extras meets, List.append_nil]

theorem block_end_run (found : List SyntaxTree) (breaks : Breaks text outer)
    (left : outer < column) :
    Runs (blockLine descent found) ⟨text, column :: indents⟩ ⟨text, indents⟩
      (Sum.elim (fun _ => False) (· = found)) := by
  obtain ⟨lexeme, after, meets⟩ := breaks.meets
  refine Runs.cursor.bind fun here lies => ?_
  have leaves : here.isDedented = true := by
    rw [Cursor.isDedented, Cursor.indent, lies.column meets, lies.indents]
    simpa using left
  rw [leaves, if_pos rfl]
  refine (Runs.set (lies.shift here.indents.tail)).bind fun _ _ => ?_
  rw [lies.indents]
  exact .pure rfl

def Remains (rest : List Char) (column : Nat) : Prop :=
  ∃ next ≤ column, Breaks rest next

theorem Remains.apart (remains : Remains rest column) : Apart rest := by
  obtain ⟨next, _, breaks⟩ := remains
  exact breaks.apart

section

variable {ι : Type} (text : ι → List Char) {items : List ι}

theorem lines_remain (remains : Remains rest column)
    (begins : ∀ item ∈ items, ∀ after, Apart after → Breaks (text item ++ after) column) :
    Remains (items.flatMap text ++ rest) column := by
  induction items with
  | nil => exact remains
  | cons item items ih =>
    obtain ⟨first, others⟩ := List.forall_mem_cons.mp begins
    rw [List.flatMap_cons, List.append_assoc]
    exact ⟨column, Nat.le_refl _, first _ (ih others).apart⟩

theorem lines_run {related : ι → SyntaxTree → Prop} {stop : Place}
    {holds : List SyntaxTree → Prop} (remains : Remains rest column)
    (begins : ∀ item ∈ items, ∀ after, Apart after → Breaks (text item ++ after) column)
    (reads : ∀ item ∈ items, ∀ after, Remains after column →
      Runs (statements descent) ⟨text item ++ after, column :: indents⟩ ⟨after, column :: indents⟩
        fun trees => ∃ tree, trees = [tree] ∧ related item tree)
    {found : List SyntaxTree} {limit : Nat} (bound : items.length < limit)
    (later : ∀ trees, List.Forall₂ related items trees →
      Runs (Reader.iterate (blockLine descent) (limit - items.length) (found ++ trees))
        ⟨rest, column :: indents⟩ stop holds) :
    Runs (Reader.iterate (blockLine descent) limit found)
      ⟨items.flatMap text ++ rest, column :: indents⟩ stop holds := by
  induction items generalizing found limit with
  | nil => simpa using later [] .nil
  | cons item items ih =>
    rw [List.length_cons] at bound
    obtain ⟨firstBegins, laterBegins⟩ := List.forall_mem_cons.mp begins
    obtain ⟨firstReads, laterReads⟩ := List.forall_mem_cons.mp reads
    -- The first line ends where the remaining text begins, be it a line or the end of the block.
    have goesOn := lines_remain text remains laterBegins
    rw [List.flatMap_cons, List.append_assoc]
    refine .again (by omega) (block_line_run found (firstBegins _ goesOn.apart)
      (firstReads _ goesOn)) fun next held => ?_
    obtain ⟨trees, rfl, tree, rfl, relates⟩ := held
    refine ih laterBegins laterReads (Nat.lt_sub_of_add_lt bound) fun trees held => ?_
    have run := later (tree :: trees) (.cons relates held)
    rw [List.append_assoc, List.singleton_append]
    rwa [List.length_cons, Nat.add_comm, ← Nat.sub_sub] at run

end

theorem suite_run {stop : Place} {holds : List SyntaxTree → Prop} (breaks : Breaks text column)
    (right : indents.headD 0 < column)
    (runs : Runs (Reader.iterate (blockLine descent) descent.limit []) ⟨text, column :: indents⟩
      stop holds) :
    Runs (suite descent) ⟨text, indents⟩ stop
      fun tree => ∃ trees, tree = .phrase .block "" trees ∧ holds trees := by
  obtain ⟨lexeme, after, meets⟩ := breaks.meets
  refine Runs.cursor.bind fun here lies => ?_
  have opens : here.isIndented = true := by
    rw [Cursor.isIndented, Cursor.indent, lies.column meets, lies.indents]
    simpa using right
  -- The cursor stays where it is; only the new block is noted.
  have shifted := lies.shift (column :: here.indents)
  rw [lies.indents] at shifted
  rw [opens, if_pos rfl, lies.column meets, lies.indents]
  refine (Runs.set shifted).bind fun _ _ => ?_
  exact runs.bind fun trees held => .pure ⟨trees, rfl, held⟩

theorem body_run {inner : Descent} (inside : descent.read .suite = suite inner) {stop : Place}
    {holds : List SyntaxTree → Prop} (breaks : Breaks text column)
    (right : indents.headD 0 < column)
    (runs : Runs (Reader.iterate (blockLine inner) inner.limit []) ⟨text, column :: indents⟩
      stop holds) :
    Runs (body descent) ⟨':' :: text, indents⟩ stop
      fun tree => ∃ trees, tree = .phrase .block "" trees ∧ holds trees := by
  have suite := suite_run breaks right runs
  obtain ⟨more, rfl⟩ := breaks.broken
  refine (Runs.expect (Shows.colon (by simp)).now).bind fun _ _ => ?_
  rw [inside]
  exact suite

theorem simple_line_run {start : Place} {holds : SyntaxTree → Prop} (positive : 0 < descent.limit)
    (breaks : Breaks rest column)
    (runs : Runs (simple descent) start ⟨rest, indents⟩ holds) :
    Runs (simpleLine descent) start ⟨rest, indents⟩
      fun trees => ∃ tree, trees = [tree] ∧ holds tree := by
  refine runs.bind fun tree held => .finish positive ?_ ⟨tree, rfl, held⟩
  exact (Runs.follow (breaks.lineEnd rfl)).next (.pure rfl)

end

end SourceDiagram.Syntax
