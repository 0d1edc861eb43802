import SourceDiagram.Proofs.ObjectModel.Functions

set_option autoImplicit false

namespace SourceDiagram.ObjectModel

open SourceDiagram.Model
open SourceDiagram.Syntax
open SourceDiagram.Syntax.Expression
open SourceDiagram.Syntax.Statement

section

variable {descent : Descent} {related : List Char → SyntaxTree → Prop} {indents : List Nat}
  {gap rest : List Char}

theorem argument_read {base : List Char} (starting : Starting base)
    (reads : Reads descent related base) (leads : Leads gap none) (ends : EndsItem rest indents) :
    Runs (argument descent) ⟨gap ++ (base ++ rest), indents⟩ ⟨rest, indents⟩
      fun element => related base element.tree := by
  obtain ⟨lexeme, after, starts, shows_⟩ := starting ends.parted
  refine Runs.cursor.bind fun before lies => ?_
  rw [lies.ahead (leads shows_)]
  rcases starts with (_ | _ | _) | _
  all_goals
    refine (element_read starting reads leads ends).bind fun element relates => ?_
    split
    · exact (ends .bracketed).refused (by decide) (.pure relates)
    · exact .pure relates

theorem next_argument_read {base : List Char} (starting : Starting base)
    (reads : Reads descent related base) (found : List SyntaxTree) (ends : EndsItem rest indents) :
    Runs (nextArgument descent found) ⟨',' :: ' ' :: (base ++ rest), indents⟩ ⟨rest, indents⟩
      (Sum.elim (fun next => ∃ tree, next = found ++ [tree] ∧ related base tree)
        fun _ => False) := by
  obtain ⟨lexeme, after, starts, shows_⟩ := starting ends.parted
  obtain ⟨lexeme, follows, other⟩ := starting_not_closing starting ends.parted leads_space
    .rightParen (by decide)
  refine .refused (.ahead (Shows.comma _).now) (by decide) ?_
  refine (Runs.expect (Shows.comma _).now).bind fun _ _ => ?_
  refine (Runs.extras shows_.spaced).next ?_
  refine .refused follows other ?_
  refine (argument_read starting reads leads_space ends).bind fun element relates => ?_
  exact .pure ⟨element.tree, by simp, relates⟩

theorem arguments_read {bases : List (List Char)} (starting : ∀ base ∈ bases, Starting base)
    (reads : ∀ base ∈ bases, Reads descent related base) (bound : bases.length ≤ descent.limit) :
    Runs (argumentList descent false) ⟨'(' :: (listed bases ++ ')' :: rest), indents⟩
      ⟨rest, indents⟩ fun tree => ∃ trees, tree = .phrase .argumentList "" trees ∧
        List.Forall₂ related bases trees := by
  refine (Runs.skip (Shows.leftParen _).now).bind fun _ _ => ?_
  cases bases with
  | nil =>
    have paren := (Shows.rightParen rest).now
    refine (Runs.extras paren).next ?_
    refine Runs.cursor.bind fun before lies => ?_
    rw [lies.ahead paren]
    exact (Runs.skip paren).bind fun _ _ => .pure ⟨[], rfl, .nil⟩
  | cons first bases =>
    obtain ⟨firstStarting, laterStarting⟩ := List.forall_mem_cons.mp starting
    obtain ⟨firstReads, laterReads⟩ := List.forall_mem_cons.mp reads
    have last := paren_ends rest indents
    have ends := items_end id last bases
    obtain ⟨lexeme, after, starts, shows_⟩ := firstStarting ends.parted
    rw [listed_cons, List.append_assoc]
    refine (Runs.extras shows_.now).next ?_
    refine Runs.cursor.bind fun before lies => ?_
    rw [lies.ahead shows_.now]
    have series (found : SyntaxTree) (relates : related first found) :
        Runs (argumentsUntil descent [found])
          ⟨bases.flatMap (fun base => ',' :: ' ' :: base) ++ ')' :: rest, indents⟩
          ⟨rest, indents⟩ (List.Forall₂ related (first :: bases)) := by
      refine items_run id last (fun found => ?_) (fun base member found left => ?_)
        (.cons relates .nil) (Nat.lt_of_succ_le bound)
      · exact .accepted (Shows.rightParen rest).now (.pure rfl)
      · exact next_argument_read (laterStarting base member) (laterReads base member) found
    rcases starts with (_ | _ | _) | _
    all_goals
      refine (argument_read firstStarting firstReads leads_nothing ends).bind
        fun element relates => ?_
      refine (no_clause (ends .bracketed)).next ?_
      exact (series element.tree relates).bind fun trees held => .pure ⟨trees, rfl, held⟩

theorem bases_read {size : Nat} (grasps : Grasps descent size) (bases : List BaseText)
    (short : (listed (bases.map Subtype.val)).length < size) :
    Runs (argumentList descent false)
      ⟨'(' :: (listed (bases.map Subtype.val) ++ ')' :: rest), indents⟩ ⟨rest, indents⟩
      fun tree => ∃ trees, tree = .phrase .argumentList "" trees ∧
        List.Forall₂ (fun base tree => Refers base.val tree) bases trees := by
  have enough := grasps.limit
  have count := listed_length (bases.map Subtype.val)
  have reads : ∀ base ∈ bases, Reads descent Refers base.val := by
    intro base member
    have inside := item_length (List.mem_map_of_mem (f := Subtype.val) member)
    exact grasps.bases base.val base.property (by omega)
  have starting : ∀ base ∈ bases, Starting base.val :=
    fun base _ => written_starting base.property
  refine (arguments_read (List.forall_mem_map.mpr starting) (List.forall_mem_map.mpr reads)
    (by omega)).mono ?_
  rintro tree ⟨trees, rfl, told⟩
  exact ⟨trees, rfl, List.forall₂_map_left_iff.mp told⟩

end

inductive Filled (declared : ClassText) : List SyntaxTree → Prop where
  | pass : declared.attributes = [] → declared.methods = [] →
      Filled declared [.leaf .passStatement "pass"]
  | members {lines definitions : List SyntaxTree} :
      List.Forall₂ (Line classSights) declared.attributes lines →
      List.Forall₂ Describes declared.methods definitions → Filled declared (lines ++ definitions)

section

variable {declared : ClassText} {trees : List SyntaxTree}

theorem Filled.accepted (filled : Filled declared trees) :
    ∀ tree ∈ trees, hasRefused tree = false := by
  cases filled with
  | pass => simpa using pass_calm.accepted
  | members lines describes =>
    exact List.forall_mem_append.mpr ⟨forall_right lines fun _ _ line => line.accepted,
      forall_right describes fun _ _ describes => describes.accepted⟩

theorem Filled.parts (filled : Filled declared trees) : ∀ tree ∈ trees, tree.isPart = true := by
  cases filled with
  | pass => exact List.forall_mem_singleton.mpr rfl
  | members lines describes =>
    exact List.forall_mem_append.mpr ⟨forall_right lines fun _ _ line => line.part,
      forall_right describes fun _ _ describes => describes.part⟩

theorem lines_sights {members : List AttributeText} {lines : List SyntaxTree}
    (told : List.Forall₂ (Line classSights) members lines) :
    bodySights lines = members.map AttributeText.sight := by
  have kept : lines.filter (fun statement => statement.kind = .expressionStatement) = lines :=
    List.filter_eq_self.mpr (forall_right told fun _ _ line => by simpa using line.kind)
  have sights : ∀ member tree, Line classSights member tree →
      (tree.parts.filter fun part => part.kind = .assignment).flatMap classSights =
        [member.sight] := by
    rintro member tree ⟨assigned, sighted⟩
    rw [sighted.parts, List.filter_cons_of_pos (by simpa using sighted.kind), List.filter_nil,
      List.flatMap_singleton, sighted.sights]
  rw [bodySights, kept, flat_map_right told sights, List.map_eq_flatMap]

theorem Filled.sights (filled : Filled declared trees) :
    bodySights trees = declared.attributes.map AttributeText.sight := by
  cases filled with
  | pass none => rw [none]; rfl
  | members lines describes =>
    rename_i statements definitions
    have others :
        definitions.filter (fun statement => statement.kind = .expressionStatement) = [] :=
      List.filter_eq_nil_iff.mpr
        (forall_right describes fun _ _ describes => by simpa using describes.other)
    rw [← lines_sights lines, bodySights, bodySights, List.filter_append, others, List.append_nil]

theorem Filled.functions {α : Type} (filled : Filled declared trees)
    {take : SyntaxTree × List SyntaxTree → α} {give : MethodText → α}
    (gives : ∀ method function decorators, methodOf function decorators = method.method →
      selfSights function = method.attributes.map AttributeText.sight →
      take (function, decorators) = give method) :
    (functionsOf trees).map take = declared.methods.map give := by
  cases filled with
  | pass _ none => rw [none]; rfl
  | members lines describes =>
    rename_i statements definitions
    have none : functionsOf statements = [] := by
      rw [functionsOf, List.filterMap_eq_nil_iff]
      refine forall_right lines fun _ tree line => ?_
      rw [definition?, line.kind]
      rfl
    have split : functionsOf (statements ++ definitions) = functionsOf definitions := by
      rw [functionsOf, List.filterMap_append]
      exact (congrArg (· ++ functionsOf definitions) none).trans (List.nil_append _)
    rw [split, functionsOf, List.map_filterMap]
    refine filter_map_right describes fun method statement describes => ?_
    obtain ⟨function, found, told, sights⟩ := describes.function
    rw [found]
    exact congrArg some (gives method function _ told sights)

end

inductive Superclasses : Option (List BaseText) → List (Role × SyntaxTree) → Prop where
  | bare : Superclasses none []
  | given {bases : List BaseText} {trees : List SyntaxTree} :
      List.Forall₂ (fun base tree => Refers base.val tree) bases trees →
      Superclasses (some bases) [(.superclasses, .phrase .argumentList "" trees)]

section

variable {bases : Option (List BaseText)} {children : List (Role × SyntaxTree)}

theorem Superclasses.accepted (superclasses : Superclasses bases children) :
    ∀ child ∈ children, hasRefused child.2 = false := by
  cases superclasses with
  | bare => simp
  | given refers =>
    exact List.forall_mem_singleton.mpr
      (phrase_accepted rfl (forall_right refers fun _ _ refers => refers.calm.accepted))

theorem Superclasses.others (superclasses : Superclasses bases children) (role : Role)
    (other : role ≠ .superclasses) : children.find? (fun child => child.1 = role) = none := by
  cases superclasses with
  | bare => rfl
  | given => simpa using other.symm

end

structure Defines (declared : ClassText) (tree : SyntaxTree)
    (superclasses : List (Role × SyntaxTree)) (body : List SyntaxTree) : Prop where
  shape : tree = .node .classDefinition ""
    ((.name, .leaf .identifier (String.ofList declared.name.val)) ::
      (superclasses ++ [(.body, .phrase .block "" body)]))
  superclasses : Superclasses declared.bases superclasses
  filled : Filled declared body

namespace Defines

variable {declared : ClassText} {tree : SyntaxTree} {superclasses : List (Role × SyntaxTree)}
  {body : List SyntaxTree}

theorem kind (defines : Defines declared tree superclasses body) :
    tree.kind = .classDefinition := by
  rw [defines.shape]
  rfl

theorem accepted (defines : Defines declared tree superclasses body) :
    hasRefused tree = false := by
  have name := (told_name declared.name.val).calm.accepted
  have block : hasRefused (.phrase .block "" body) = false :=
    phrase_accepted rfl defines.filled.accepted
  rw [defines.shape]
  refine accepted_node rfl ?_
  rw [List.forall_mem_cons, List.forall_mem_append]
  exact ⟨name, defines.superclasses.accepted, List.forall_mem_singleton.mpr block⟩

theorem bases_of (defines : Defines declared tree superclasses body) :
    basesOf tree = (declared.bases.getD []).map fun base => String.ofList base.val := by
  have superclasses := defines.superclasses
  rw [defines.shape]
  generalize declared.bases = bases at superclasses
  cases superclasses with
  | bare => rfl
  | given refers =>
    have parts := phrase_parts .argumentList ""
      (forall_right refers fun _ _ refers => refers.part)
    refine (congrArg (List.filterMap baseName?) parts).trans ?_
    refine filter_map_right refers fun base tree refers => ?_
    rw [refers.base, ← refers.spelled, String.ofList_toList]

theorem describe (defines : Defines declared tree superclasses body) :
    describe? tree = some declared.record := by
  have name : tree.field? .name = some (.leaf .identifier (String.ofList declared.name.val)) := by
    rw [defines.shape]
    rfl
  have block : tree.field? .body = some (.phrase .block "" body) := by
    have others := defines.superclasses.others .body (by decide)
    rw [defines.shape, SyntaxTree.field?, SyntaxTree.children_node,
      List.find?_cons_of_neg (by simp), List.find?_append, others]
    rfl
  have parts : (SyntaxTree.phrase .block "" body).parts = body :=
    phrase_parts .block "" defines.filled.parts
  have methods : ((functionsOf body).map fun entry => methodOf entry.1 entry.2) =
      declared.methods.map MethodText.method :=
    defines.filled.functions fun _ _ _ told _ => told
  have sights : sightsOf body = declared.sights := by
    have inner : (functionsOf body).flatMap (fun entry => selfSights entry.1) =
        declared.methods.flatMap fun method => method.attributes.map AttributeText.sight := by
      rw [List.flatMap_def, List.flatMap_def]
      exact congrArg List.flatten (defines.filled.functions fun _ _ _ _ sights => sights)
    rw [sightsOf, defines.filled.sights]
    exact congrArg _ inner
  rw [describe?, name, block]
  simp only [Option.bind_eq_bind, Option.bind_some, parts, sights, methods, defines.bases_of]
  exact congrArg some (add_attributes rfl declared.sights)

end Defines

end SourceDiagram.ObjectModel
