import SourceDiagram.Syntax.Reader
import SourceDiagram.Syntax.Statement

set_option autoImplicit false

namespace SourceDiagram.Syntax

variable {α β : Type}

def Yields (reader : Reader α) (holds : α → Prop) : Prop :=
  ∀ before result after, reader before = some (result, after) → holds result

namespace Yields

theorem pure {holds : α → Prop} {result : α} (held : holds result) :
    Yields (Pure.pure result) holds := by
  intro before given after same
  cases same
  exact held

theorem mono {holds goal : α → Prop} {reader : Reader α} (yields : Yields reader holds)
    (weaker : ∀ result, holds result → goal result) : Yields reader goal :=
  fun before result after same => weaker result (yields before result after same)

theorem failure {holds : α → Prop} : Yields (Alternative.failure : Reader α) holds := by
  intro before given after same
  cases same

theorem bind {holds : α → Prop} {goal : β → Prop} {first : Reader α} {rest : α → Reader β}
    (head : Yields first holds) (tail : ∀ result, holds result → Yields (rest result) goal) :
    Yields (first >>= rest) goal := by
  intro before given after same
  obtain ⟨⟨result, between⟩, left, right⟩ := Option.bind_eq_some_iff.mp same
  exact tail result (head before result between left) between given after right

theorem after {goal : β → Prop} {first : Reader α} {rest : α → Reader β}
    (tail : ∀ result, Yields (rest result) goal) : Yields (first >>= rest) goal :=
  bind (fun _ _ _ _ => trivial) fun result _ => tail result

theorem orElse {holds : α → Prop} {first second : Reader α} (left : Yields first holds)
    (right : Yields second holds) : Yields (first <|> second) holds := by
  intro before given after same
  cases found : first before with
  | none =>
    have chosen : (first <|> second) before = second before := by
      show (first before <|> second before) = second before
      rw [found]
      rfl
    exact right before given after (chosen.symm.trans same)
  | some pair =>
    have chosen : (first <|> second) before = some pair := by
      show (first before <|> second before) = some pair
      rw [found]
      rfl
    exact left before given after (found.trans (chosen.symm.trans same))

theorem iterate (invariant : α → Prop) {goal : β → Prop} {step : α → Reader (α ⊕ β)}
    (kept : ∀ state, invariant state → Yields (step state) (Sum.elim invariant goal))
    (limit : Nat) {state : α} (start : invariant state) :
    Yields (Reader.iterate step limit state) goal := by
  induction limit generalizing state with
  | zero => exact failure
  | succ limit ih =>
    refine bind (kept state start) fun result held => ?_
    cases result with
    | inl next => exact ih held
    | inr final => exact pure held

end Yields

open Reader

def Plain (tree : SyntaxTree) : Prop :=
  tree.kind ≠ .classDefinition ∧ tree.kind ≠ .decoratedDefinition

def Named (tree : SyntaxTree) : Prop :=
  (tree.field? .name).isSome ∧ (tree.field? .body).isSome

structure Complete (tree : SyntaxTree) : Prop where
  named : tree.kind = .classDefinition → Named tree
  decorated : tree.kind = .decoratedDefinition → ∀ definition,
    tree.field? .definition = some definition → definition.kind = .classDefinition →
    Named definition

theorem Plain.complete {tree : SyntaxTree} (plain : Plain tree) : Complete tree :=
  ⟨fun same => absurd same plain.1, fun same => absurd same plain.2⟩

theorem Yields.plain {kind : Kind} {text : String} {children : List (Role × SyntaxTree)}
    (other : kind ≠ .classDefinition ∧ kind ≠ .decoratedDefinition) :
    Yields (Pure.pure (.node kind text children)) Plain :=
  .pure other

theorem extra_plain (extra : Extra) : Plain extra.tree := by
  cases extra with
  | comment text => exact ⟨nofun, nofun⟩
  | joinedLine text => exact ⟨nofun, nofun⟩

namespace Statement

variable {descent : Descent}

theorem expression_statement_plain : Yields (expressionStatement descent) Plain := by
  refine .after fun here => ?_
  split
  · exact .after fun _ => .after fun _ => .plain (by decide)
  · refine .after fun found => .after fun next => ?_
    split
    · exact .after fun _ => .after fun _ => .after fun _ => .plain (by decide)
    · refine .after fun _ => .after fun _ => .after fun _ => .after fun assigned => ?_
      split
      · exact .after fun _ => .plain (by decide)
      · exact .plain (by decide)
    · split
      · exact .after fun _ => .after fun _ => .after fun _ => .plain (by decide)
      · exact .plain (by decide)
    · exact .plain (by decide)

theorem import_from_plain : Yields (importFrom descent) Plain := by
  refine .after fun count => .after fun word => ?_
  split
  · exact .after fun _ => .after fun _ => .after fun _ => .plain (by decide)
  · refine .after fun _ => .after fun _ => .after fun starred => ?_
    split
    · exact .plain (by decide)
    · exact .after fun _ => .plain (by decide)

theorem raised_plain : Yields (raised descent) Plain := by
  refine .after fun next => ?_
  extract_lets rest
  have landing : ∀ values, Yields (rest values) Plain := by
    refine fun values => .after fun caused => ?_
    split
    · exact .after fun _ => .plain (by decide)
    · exact .plain (by decide)
  split
  · exact .after fun _ => .after fun _ => landing _
  · exact .after fun _ => landing _

theorem closed_plain {statement : Reader SyntaxTree} (plain : Yields statement Plain) :
    Yields (closed statement) Plain := by
  refine .bind plain fun tree held => .after fun next => ?_
  split
  · exact .pure held
  · exact .pure held
  · exact .failure

theorem print_statement_plain : Yields (printStatement descent) Plain := by
  refine .after fun here => ?_
  extract_lets next
  split
  · exact .after fun _ => .after fun _ => .after fun _ => .after fun _ => .plain (by decide)
  · split
    · exact expression_statement_plain
    · exact .orElse (closed_plain expression_statement_plain)
        (.after fun _ => .after fun _ => .plain (by decide))

theorem exec_statement_plain : Yields (execStatement descent) Plain := by
  refine .after fun here => ?_
  split
  · refine .after fun _ => .after fun next => ?_
    extract_lets rest
    have landing : ∀ code, Yields (rest code) Plain := by
      refine fun code => .after fun bounded => ?_
      split
      · exact .after fun _ => .plain (by decide)
      · exact .plain (by decide)
    split
    · exact .after fun _ => landing _
    · exact .after fun _ => landing _
  · exact expression_statement_plain

theorem type_alias_plain : Yields (typeAlias descent) Plain :=
  .after fun _ => .after fun _ => .after fun _ => .after fun _ => .after fun _ => .after fun _ =>
    .plain (by decide)

theorem simple_plain : Yields (simple descent) Plain := by
  refine .after fun here => ?_
  split
  · split
    · exact .after fun _ => .after fun _ => .plain (by decide)
    · exact .after fun _ => import_from_plain
    · exact print_statement_plain
    · exact exec_statement_plain
    · exact .orElse (closed_plain type_alias_plain) expression_statement_plain
    · exact .after fun _ => .after fun _ => .plain (by decide)
    · exact .after fun _ => .after fun _ => .plain (by decide)
    · exact .after fun _ => .after fun _ => .after fun _ => .after fun _ => .plain (by decide)
    · exact .after fun _ => raised_plain
    · exact .after fun _ => .plain (by decide)
    · exact .after fun _ => .plain (by decide)
    · exact .after fun _ => .plain (by decide)
    · exact .after fun _ => .after fun _ => .plain (by decide)
    · exact .after fun _ => .after fun _ => .plain (by decide)
    · exact expression_statement_plain
  · exact expression_statement_plain

def AllPlain (trees : List SyntaxTree) : Prop :=
  ∀ tree ∈ trees, Plain tree

theorem simple_line_plain : Yields (simpleLine descent) AllPlain := by
  refine .bind simple_plain fun first plain => .iterate AllPlain ?_ _ ?_
  · intro found held
    refine .after fun next => ?_
    split
    · exact .pure held
    · refine .after fun _ => .after fun following => ?_
      split
      · exact .pure held
      · refine .bind simple_plain fun next plain => .pure ?_
        exact List.forall_mem_append.mpr ⟨held, List.forall_mem_singleton.mpr plain⟩
    · exact .failure
  · exact List.forall_mem_singleton.mpr plain

theorem conditional_plain : Yields (conditional descent) Plain :=
  .after fun _ => .after fun _ => .after fun _ => .after fun _ => .plain (by decide)

theorem loop_plain : Yields (loop descent) Plain :=
  .after fun _ => .after fun _ => .after fun _ => .after fun _ => .after fun _ =>
    .plain (by decide)

theorem while_loop_plain : Yields (whileLoop descent) Plain :=
  .after fun _ => .after fun _ => .after fun _ => .plain (by decide)

theorem attempt_plain : Yields (attempt descent) Plain := by
  refine .after fun first => .after fun _ => .after fun _ => .after fun found => ?_
  split
  · refine .after fun last => ?_
    split
    · exact .failure
    · exact .plain (by decide)
  · exact .after fun _ => .after fun _ => .plain (by decide)

theorem with_statement_plain : Yields (withStatement descent) Plain :=
  .after fun _ => .after fun _ => .after fun _ => .after fun _ => .plain (by decide)

theorem match_statement_plain : Yields (matchStatement descent) Plain :=
  .after fun _ => .after fun _ => .after fun _ => .after fun _ => .after fun _ => .after fun _ =>
    .plain (by decide)

theorem function_rest_plain {before : List (Role × SyntaxTree)} {bounded : Bool} :
    Yields (functionRest descent before bounded) Plain :=
  .after fun _ => .after fun _ => .plain (by decide)

theorem function_definition_plain : Yields (functionDefinition descent) Plain := by
  refine .after fun _ => .after fun _ => .after fun _ => ?_
  extract_lets before
  refine .after fun typed => ?_
  split
  · exact .orElse function_rest_plain function_rest_plain
  · exact .after fun _ => .plain (by decide)

theorem class_definition_named : Yields (classDefinition descent) fun tree =>
    tree.kind = .classDefinition ∧ Named tree := by
  refine .after fun name => .after fun types => .after fun opened => ?_
  extract_lets rest
  have landing : ∀ bases, Yields (rest bases) fun tree =>
      tree.kind = .classDefinition ∧ Named tree := by
    refine fun bases => .after fun body => .pure ⟨rfl, ?_, ?_⟩
    · simp [SyntaxTree.field?]
    · simp [SyntaxTree.field?]
  split
  · exact .after fun _ => .after fun _ => landing _
  · exact .after fun _ => landing _

theorem decorated_definition_complete : Yields (decoratedDefinition descent) Complete := by
  refine .after fun _ => .after fun first => .after fun decorators => .after fun declared => ?_
  extract_lets rest
  have landing : ∀ definition, (definition.kind = .classDefinition → Named definition) →
      Yields (rest definition) Complete := by
    refine fun definition named => .pure ⟨nofun, fun _ inner found => ?_⟩
    have plain : ((decorators.map fun decorator => (Role.plain, decorator)).find?
        fun child => child.1 = .definition) = none := by
      simp
    have same : inner = definition := by
      simpa [SyntaxTree.field?, plain] using found.symm
    rw [same]
    exact named
  split
  · exact .bind class_definition_named fun definition held => landing _ fun _ => held.2
  · exact .after fun _ => .after fun _ => .bind function_definition_plain fun definition plain =>
      landing _ fun same => absurd same plain.1

def AllComplete (trees : List SyntaxTree) : Prop :=
  ∀ tree ∈ trees, Complete tree

theorem single_plain {statement : Reader SyntaxTree} (plain : Yields statement Plain) :
    Yields (do return [← statement]) AllComplete :=
  .bind plain fun _ held => .pure (List.forall_mem_singleton.mpr held.complete)

theorem line_complete : Yields (simpleLine descent) AllComplete :=
  simple_line_plain.mono fun _ plain tree member => (plain tree member).complete

theorem asynchronous_plain {keyword : Keyword} {statement : Reader SyntaxTree}
    (found : asynchronous descent keyword = some statement) : Yields statement Plain := by
  unfold asynchronous at found
  split at found
  · cases found
    exact loop_plain
  · cases found
    exact with_statement_plain
  · cases found
    exact function_definition_plain
  · cases found

theorem statements_complete : Yields (statements descent) AllComplete := by
  refine .after fun here => ?_
  split
  · exact .bind decorated_definition_complete fun _ held =>
      .pure (List.forall_mem_singleton.mpr held)
  · split
    · exact .after fun _ => single_plain conditional_plain
    · exact .after fun _ => single_plain loop_plain
    · exact .after fun _ => single_plain while_loop_plain
    · exact .after fun _ => single_plain attempt_plain
    · exact .after fun _ => single_plain with_statement_plain
    · exact .after fun _ => single_plain function_definition_plain
    · refine .after fun _ => .bind class_definition_named fun tree held => ?_
      exact .pure (List.forall_mem_singleton.mpr ⟨fun _ => held.2, by simp [held.1]⟩)
    · split
      · split
        · rename_i found
          exact .after fun _ => .after fun _ => single_plain (asynchronous_plain found)
        · exact line_complete
      · exact line_complete
    · exact .orElse (single_plain match_statement_plain) line_complete
    · exact line_complete
  · exact line_complete

theorem module_complete : Yields (module descent) fun tree => AllComplete tree.parts := by
  refine .iterate AllComplete ?_ _ ?_
  · intro found held
    refine .after fun here => ?_
    have extras : AllComplete here.gap.extras := by
      intro tree member
      obtain ⟨extra, -, rfl⟩ := List.mem_map.mp member
      exact (extra_plain extra).complete
    have passed : AllComplete (found ++ here.gap.extras) := List.forall_mem_append.mpr ⟨held, extras⟩
    split
    · refine .pure fun tree member => passed tree ?_
      simpa [SyntaxTree.phrase] using (List.mem_filter.mp member).1
    · refine .bind statements_complete fun next complete => .pure ?_
      exact List.forall_mem_append.mpr ⟨passed, complete⟩
  · exact fun tree member => nomatch member

end Statement

theorem parts_complete {text : String} {module : SyntaxTree} (parsed : parse? text = some module) :
    Statement.AllComplete module.parts := by
  obtain ⟨⟨tree, last⟩, read, rfl⟩ := Option.map_eq_some_iff.mp parsed
  exact Statement.module_complete _ tree last read

end SourceDiagram.Syntax
