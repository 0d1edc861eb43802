import SourceDiagram.ObjectModel.Description
import SourceDiagram.Proofs.ObjectModel.Parameters

set_option autoImplicit false

namespace SourceDiagram.ObjectModel

open SourceDiagram.Model
open SourceDiagram.Syntax
open SourceDiagram.Syntax.Statement

inductive Assigned (left : SyntaxTree) : AttributeText → SyntaxTree → Prop where
  | declared {name : Name} {type : TypeText} {declared : SyntaxTree} : Told type.val declared →
      Assigned left ⟨name, some type, false⟩ (assignment [(.left, left), (.declared, declared)])
  | both {name : Name} {type : TypeText} {declared : SyntaxTree} : Told type.val declared →
      Assigned left ⟨name, some type, true⟩ (assignment
        [(.left, left), (.declared, declared), (.right, .leaf .noneLiteral "None")])
  | valued {name : Name} {valued : Bool} : Assigned left ⟨name, none, valued⟩
      (assignment [(.left, left), (.right, .leaf .noneLiteral "None")])

namespace Assigned

variable {left tree : SyntaxTree} {member : AttributeText}

theorem kind (assigned : Assigned left member tree) : tree.kind = .assignment := by
  cases assigned <;> rfl

theorem field_left (assigned : Assigned left member tree) : tree.field? .left = some left := by
  cases assigned <;> rfl

theorem chain (assigned : Assigned left member tree) : chain tree = [tree] := by
  cases assigned <;> rfl

theorem type (assigned : Assigned left member tree) :
    unparse (tree.field? .declared) = member.sight.declaredType := by
  cases assigned with
  | declared told => exact declared_told told
  | both told => exact declared_told told
  | valued => rfl

theorem accepted (assigned : Assigned left member tree) (calm : Calm left) :
    hasRefused tree = false := by
  have absent : Calm (.leaf .noneLiteral "None") := calm_leaf (by decide) rfl
  cases assigned with
  | declared told =>
    refine accepted_node rfl ?_
    simp only [List.forall_mem_cons]
    exact ⟨calm.accepted, told.calm.accepted, by simp⟩
  | both told =>
    refine accepted_node rfl ?_
    simp only [List.forall_mem_cons]
    exact ⟨calm.accepted, told.calm.accepted, absent.accepted, by simp⟩
  | valued =>
    refine accepted_node rfl ?_
    simp only [List.forall_mem_cons]
    exact ⟨calm.accepted, absent.accepted, by simp⟩

end Assigned

structure Sighted (sights : SyntaxTree → List Attribute) (member : AttributeText)
    (tree assigned : SyntaxTree) : Prop where
  statement : tree = .phrase .expressionStatement "" [assigned]
  kind : assigned.kind = .assignment
  accepted : hasRefused assigned = false
  sights : sights assigned = [member.sight]

def Line (sights : SyntaxTree → List Attribute) (member : AttributeText) (tree : SyntaxTree) :
    Prop :=
  ∃ assigned, Sighted sights member tree assigned

section

variable {sights : SyntaxTree → List Attribute} {member : AttributeText}
  {tree assigned : SyntaxTree}

theorem Sighted.parts (sighted : Sighted sights member tree assigned) :
    tree.parts = [assigned] := by
  have part : assigned.isPart = true := by
    rw [SyntaxTree.isPart, sighted.kind]
    rfl
  rw [sighted.statement]
  simp [SyntaxTree.parts, SyntaxTree.phrase, part]

theorem Line.kind (line : Line sights member tree) : tree.kind = .expressionStatement := by
  obtain ⟨assigned, sighted⟩ := line
  rw [sighted.statement]
  rfl

theorem Line.part (line : Line sights member tree) : tree.isPart = true := by
  rw [SyntaxTree.isPart, line.kind]
  rfl

theorem Line.accepted (line : Line sights member tree) : hasRefused tree = false := by
  obtain ⟨assigned, sighted⟩ := line
  rw [sighted.statement]
  exact accepted_node rfl (by simpa using sighted.accepted)

end

theorem sighted_in_class {member : AttributeText} {assigned : SyntaxTree}
    (told : Assigned (.leaf .identifier (String.ofList member.name.val)) member assigned) :
    Sighted classSights member (.phrase .expressionStatement "" [assigned]) assigned := by
  have calm := (told_name member.name.val).calm
  refine ⟨rfl, told.kind, told.accepted calm, ?_⟩
  have target : plainTarget? assigned = some (String.ofList member.name.val) := by
    rw [plainTarget?, told.field_left]
    rfl
  have type := told.type
  -- A declared attribute is taken by itself; without a type, all targets of the chain are.
  rw [classSights]
  split
  · rename_i declared found
    rw [found] at type
    rw [target, type]
    rfl
  · rename_i found
    rw [found] at type
    rw [told.chain, List.filterMap_cons, target, AttributeText.sight]
    exact congrArg (fun type => [Attribute.mk _ type]) type

theorem sighted_in_method {member : AttributeText} {spanned : String} {assigned : SyntaxTree}
    (told : Assigned (.node .attribute spanned [(.object, .leaf .identifier "self"),
      (.attribute, .leaf .identifier (String.ofList member.name.val))]) member assigned) :
    Sighted methodSights member (.phrase .expressionStatement "" [assigned]) assigned := by
  have calm := (told_member (told_name "self".toList).toTold member.name.val spanned).calm
  refine ⟨rfl, told.kind, told.accepted calm, ?_⟩
  have target : selfTarget? assigned = some (String.ofList member.name.val) := by
    rw [selfTarget?, told.field_left]
    rfl
  rw [methodSights, told.chain, told.type, List.filterMap_cons, target]
  rfl

section

variable {descent : Descent} {size column : Nat} {indents : List Nat} {gap rest : List Char}

theorem single_read {start stop : Place} {holds : SyntaxTree → Prop} {context : Context}
    (positive : 0 < descent.limit)
    (runs : Runs (descent.read (.expression context 0)) start stop holds)
    (ends : Ends [.mark .colon, .mark .assign, .lineEnd] stop context) :
    Runs (Expression.series descent context) start stop
      fun found => ∃ tree, found = ⟨[tree], false⟩ ∧ holds tree :=
  runs.bind fun tree held =>
    .finish positive (ends.refused (by decide) (.pure rfl)) ⟨tree, rfl, held⟩

theorem line_ends (breaks : Breaks rest column) (indents : List Nat) {allowed : List Lexeme}
    (ending : .lineEnd ∈ allowed) : Ends allowed ⟨rest, indents⟩ .line :=
  ⟨breaks.apart, .lineEnd, ending, breaks.lineEnd rfl⟩

theorem right_side_read (grasps : Grasps descent size) (breaks : Breaks rest column) :
    Runs (rightSide descent) ⟨[' '] ++ (['N', 'o', 'n', 'e'] ++ rest), indents⟩ ⟨rest, indents⟩
      (· = .leaf .noneLiteral "None") := by
  have enough := grasps.limit
  have meets := leads_space (none_shows breaks.apart)
  have value := grasps.expression_none (line_ends breaks indents (by decide)) leads_space
  refine .finish (by omega) ?_ rfl
  refine (Runs.lead (.ahead meets) (by simp)).next ?_
  refine (Runs.require rfl).bind fun _ _ => ?_
  refine Runs.cursor.bind fun here lies => ?_
  rw [lies.ahead meets]
  refine (single_read (by omega) value (line_ends breaks indents (by decide))).bind
    fun found held => ?_
  obtain ⟨tree, rfl, rfl⟩ := held
  exact (Runs.follow (breaks.lineEnd rfl)).next (.pure rfl)

theorem value_shows (rest : List Char) :
    Meets (AttributeText.noneValue ++ rest) none (.mark .assign)
      ([' '] ++ (['N', 'o', 'n', 'e'] ++ rest)) :=
  leads_space (Shows.assign (by simp))

theorem target_ends (member : AttributeText) (rest : List Char) (indents : List Nat) :
    Ends [.mark .colon, .mark .assign, .lineEnd]
      ⟨typeSuffix member.declared ++ (member.value ++ rest), indents⟩ .line := by
  obtain ⟨name, declared, valued⟩ := member
  cases declared with
  | some type =>
    exact ⟨apart_cons _ (by decide), .mark .colon, by decide, .ahead (Shows.colon (by simp)).now⟩
  | none =>
    have value : AttributeText.value ⟨name, none, valued⟩ = AttributeText.noneValue := by
      simp [AttributeText.value]
    rw [value]
    exact ⟨apart_cons _ (by decide), .mark .assign, by decide, .ahead (value_shows rest)⟩

structure Targeted (descent : Descent) (indents : List Nat) (start after : List Char)
    (holds : SyntaxTree → Prop) : Prop where
  opens : ∃ level lexeme rest, Opens lexeme ∧ Meets start level lexeme rest
  reads : Runs (descent.read (.expression .line 0)) ⟨start, indents⟩ ⟨after, indents⟩ holds
  pattern : ∀ tree, holds tree → tree.toPattern? = some tree

theorem target_of_read {left : SyntaxTree} {place : Place}
    (pattern : left.toPattern? = some left) :
    Runs (targetOf ⟨[left], false⟩) place place (· = left) := by
  have target : targetOf? ⟨[left], false⟩ = some left := by
    simp [targetOf?, pattern]
  rw [targetOf, target]
  exact .pure rfl

theorem expression_statement_read (grasps : Grasps descent size) (member : AttributeText)
    (short : member.text.length ≤ size) (breaks : Breaks rest column) {start : List Char}
    {holds : SyntaxTree → Prop} (target : Targeted descent indents start
      (typeSuffix member.declared ++ (member.value ++ rest)) holds) :
    Runs (expressionStatement descent) ⟨start, indents⟩ ⟨rest, indents⟩ fun tree =>
      ∃ left assigned, holds left ∧ tree = .phrase .expressionStatement "" [assigned] ∧
        Assigned left member assigned := by
  have enough := grasps.limit
  obtain ⟨level, lexeme, after, opens, meets⟩ := target.opens
  have series := single_read (by omega) target.reads (target_ends member rest indents)
  obtain ⟨name, declared, valued⟩ := member
  refine Runs.cursor.bind fun here lies => ?_
  rw [lies.ahead meets]
  cases opens
  all_goals
    refine series.bind fun found held => ?_
    obtain ⟨left, rfl, held⟩ := held
    have pattern := target.pattern left held
    cases declared with
    | none =>
      have value : AttributeText.value ⟨name, none, valued⟩ = AttributeText.noneValue := by
        simp [AttributeText.value]
      rw [value]
      refine (Runs.follow (.ahead (value_shows rest))).next ?_
      refine (target_of_read pattern).next ?_
      refine (Runs.skip (value_shows rest)).bind fun _ _ => ?_
      exact (right_side_read grasps breaks).next (.pure ⟨left, _, held, rfl, .valued⟩)
    | some type =>
      have fits : type.val.length ≤ size := by
        simp only [AttributeText.text, typeSuffix, Option.elim, List.length_append,
          List.length_cons] at short
        omega
      cases valued with
      | false =>
        have colon := (Shows.colon (by simp) : Shows (':' :: ' ' :: (type.val ++ rest)) _ _).now
        refine (Runs.follow (.ahead colon)).next ?_
        refine (target_of_read pattern).next ?_
        refine (Runs.skip colon).bind fun _ _ => ?_
        have typeEnds : Ends (typeStops true) ⟨rest, indents⟩ .line :=
          line_ends breaks indents (by decide)
        refine (grasps.demand_type type.property fits typeEnds).bind fun declared told => ?_
        exact .refused (breaks.lineEnd rfl) (by simp) (.pure ⟨left, _, held, rfl, .declared told⟩)
      | true =>
        have colon := (Shows.colon (by simp) : Shows
          (':' :: ' ' :: (type.val ++ (AttributeText.noneValue ++ rest))) _ _).now
        refine (Runs.follow (.ahead colon)).next ?_
        refine (target_of_read pattern).next ?_
        refine (Runs.skip colon).bind fun _ _ => ?_
        have typeEnds : Ends (typeStops true) ⟨AttributeText.noneValue ++ rest, indents⟩ .line :=
          ⟨apart_cons _ (by decide), .mark .assign, by decide, .ahead (value_shows rest)⟩
        refine (grasps.demand_type type.property fits typeEnds).bind fun declared told => ?_
        refine .accepted (value_shows rest) ?_
        exact (right_side_read grasps breaks).next (.pure ⟨left, _, held, rfl, .both told⟩)

theorem attribute_line_split (member : AttributeText) (rest : List Char) :
    ClassText.attributeLine member ++ rest = indent 4 ++
      (member.name.val ++ (typeSuffix member.declared ++ (member.value ++ rest))) := by
  simp [ClassText.attributeLine, line, AttributeText.text]

theorem self_line_split (member : AttributeText) (rest : List Char) :
    MethodText.selfLine member ++ rest = indent 8 ++ (['s', 'e', 'l', 'f'] ++ '.' ::
      (member.name.val ++ (typeSuffix member.declared ++ (member.value ++ rest)))) := by
  simp [MethodText.selfLine, line, AttributeText.text]

theorem attribute_line_length (member : AttributeText) :
    member.text.length < (ClassText.attributeLine member).length := by
  simp only [ClassText.attributeLine, line, indent, List.length_append, List.length_cons]
  omega

theorem self_line_length (member : AttributeText) :
    member.text.length < (MethodText.selfLine member).length := by
  simp only [MethodText.selfLine, line, indent, List.length_append, List.length_cons]
  omega

theorem self_shows (text : List Char) :
    Shows (['s', 'e', 'l', 'f'] ++ '.' :: text) (.word "self" none) ('.' :: text) :=
  shows_word (by decide) (apart_cons text (by decide))

theorem attribute_line_begins (member : AttributeText) (rest : List Char) :
    Breaks (ClassText.attributeLine member ++ rest) 4 := by
  obtain ⟨keyword, opens, shows_⟩ :=
    name_shows member.name.property (target_ends member rest []).apart
  rw [attribute_line_split]
  exact breaks_indent 4 shows_

theorem self_line_begins (member : AttributeText) (rest : List Char) :
    Breaks (MethodText.selfLine member ++ rest) 8 := by
  rw [self_line_split]
  exact breaks_indent 8 (self_shows _)

theorem simple_statement_read {start : Place} {level : Option Nat} {lexeme : Lexeme}
    {after : List Char} {holds : SyntaxTree → Prop} (opens : Opens lexeme)
    (meets : Meets start.text level lexeme after) (positive : 0 < descent.limit)
    (breaks : Breaks rest column)
    (runs : Runs (expressionStatement descent) start ⟨rest, indents⟩ holds) :
    Runs (statements descent) start ⟨rest, indents⟩
      fun trees => ∃ tree, trees = [tree] ∧ holds tree := by
  have simple : Runs (simple descent) start ⟨rest, indents⟩ holds := by
    refine Runs.cursor.bind fun here lies => ?_
    rw [lies.ahead meets]
    cases opens <;> exact runs
  have line := simple_line_run positive breaks simple
  refine Runs.cursor.bind fun here lies => ?_
  rw [lies.ahead meets]
  cases opens <;> exact line

theorem pass_shows (apart : Apart rest) :
    Shows (passWord ++ rest) (.word "pass" (some .pass_)) rest :=
  shows_word (by decide) apart

theorem pass_statement_read {level : Option Nat} (leads : Leads gap level) (apart : Apart rest) :
    Runs (simple descent) ⟨gap ++ (passWord ++ rest), indents⟩ ⟨rest, indents⟩
      (· = .leaf .passStatement "pass") := by
  have meets := leads (pass_shows apart)
  refine Runs.cursor.bind fun here lies => ?_
  rw [lies.ahead meets]
  exact (Runs.skip meets).bind fun _ _ => .pure rfl

theorem pass_read (width : Nat) (breaks : Breaks rest column) (positive : 0 < descent.limit) :
    Runs (statements descent) ⟨line width passWord ++ rest, indents⟩ ⟨rest, indents⟩
      fun trees => ∃ tree, trees = [tree] ∧ tree = .leaf .passStatement "pass" := by
  have meets := leads_indent width (pass_shows breaks.apart)
  rw [line, List.append_assoc]
  refine Runs.cursor.bind fun here lies => ?_
  rw [lies.ahead meets]
  exact simple_line_run positive breaks (pass_statement_read (leads_indent width) breaks.apart)

theorem attribute_read (grasps : Grasps descent size) (member : AttributeText)
    (short : member.text.length ≤ size) (breaks : Breaks rest column) :
    Runs (statements descent) ⟨ClassText.attributeLine member ++ rest, indents⟩ ⟨rest, indents⟩
      fun trees => ∃ tree, trees = [tree] ∧ Line classSights member tree := by
  have enough := grasps.limit
  have ends := target_ends member rest indents
  have reads := grasps.expression_name (ends.mono (by decide)) member.name.property
    (leads_indent 4)
  obtain ⟨keyword, opens, shows_⟩ := name_shows member.name.property ends.apart
  have meets := leads_indent 4 shows_
  have target : Targeted descent indents _ _ _ :=
    ⟨⟨_, _, _, opens, meets⟩, reads, by rintro tree rfl; rfl⟩
  rw [attribute_line_split]
  have statement := expression_statement_read grasps member short breaks target
  refine (simple_statement_read opens meets (by omega) breaks statement).mono ?_
  rintro trees ⟨tree, rfl, left, assigned, rfl, rfl, told⟩
  exact ⟨_, rfl, _, sighted_in_class told⟩

theorem self_attribute_read (grasps : Grasps descent size) (member : AttributeText)
    (short : member.text.length ≤ size) (breaks : Breaks rest column) :
    Runs (statements descent) ⟨MethodText.selfLine member ++ rest, indents⟩ ⟨rest, indents⟩
      fun trees => ∃ tree, trees = [tree] ∧ Line methodSights member tree := by
  have enough := grasps.limit
  have ends := target_ends member rest indents
  have reads := grasps.expression_member (ends.mono (by decide)) is_name_self
    member.name.property (leads_indent 8)
  have meets := leads_indent 8 (self_shows
    (member.name.val ++ (typeSuffix member.declared ++ (member.value ++ rest))))
  have target : Targeted descent indents _ _ _ :=
    ⟨⟨_, _, _, .name "self", meets⟩, reads, by rintro tree ⟨spanned, rfl⟩; rfl⟩
  rw [self_line_split]
  have statement := expression_statement_read grasps member short breaks target
  refine (simple_statement_read (.name "self") meets (by omega) breaks statement).mono ?_
  rintro trees ⟨tree, rfl, left, assigned, ⟨spanned, rfl⟩, rfl, told⟩
  exact ⟨_, rfl, _, sighted_in_method told⟩

end

end SourceDiagram.ObjectModel
