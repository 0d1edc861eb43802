import SourceDiagram.ObjectModel.Description
import SourceDiagram.Proofs.ObjectModel.ClassText
import SourceDiagram.Proofs.ObjectModel.Types

set_option autoImplicit false

namespace SourceDiagram.ObjectModel

open SourceDiagram.Model
open SourceDiagram.Syntax
open SourceDiagram.Syntax.Parameter

inductive Gathers (letters : List Char) : Stars → SyntaxTree → Prop where
  | none : Gathers letters .none (.leaf .identifier (String.ofList letters))
  | one (spanned : String) : Gathers letters .one
      (.phrase .listSplatPattern spanned [.leaf .identifier (String.ofList letters)])
  | two (spanned : String) : Gathers letters .two
      (.phrase .dictionarySplatPattern spanned [.leaf .identifier (String.ofList letters)])

inductive Typed (place : SyntaxTree) : Option TypeText → SyntaxTree → Prop where
  | bare : Typed place none place
  | typed {type : TypeText} {declared : SyntaxTree} : Told type.val declared →
      Typed place (some type)
        (.node .typedParameter "" [(.plain, place), (.declared, declared)])

def plainKinds : List Kind :=
  [.identifier, .listSplatPattern, .dictionarySplatPattern]

structure Takes (entry : ParameterText) (tree : SyntaxTree) : Prop where
  part : tree.isPart = true
  calm : Calm tree
  plain : (judged tree).kind ∈ plainKinds
  declared : parameter? tree = some entry.parameter

theorem Gathers.calm {letters : List Char} {stars : Stars} {tree : SyntaxTree}
    (gathers : Gathers letters stars tree) : Calm tree := by
  have name : Calm (.leaf .identifier (String.ofList letters)) := (told_name letters).calm
  cases gathers with
  | none => exact name
  | one => exact calm_phrase (by decide) (fun _ => rfl) (by simpa using name)
  | two => exact calm_phrase (by decide) (fun _ => rfl) (by simpa using name)

theorem Gathers.name {letters : List Char} {stars : Stars} {tree : SyntaxTree}
    (gathers : Gathers letters stars tree) :
    parameterName tree = String.ofList (stars.text ++ letters) := by
  cases gathers with
  | none => rfl
  | one => exact String.ofList_append.symm
  | two => exact String.ofList_append.symm

theorem Gathers.plain {letters : List Char} {stars : Stars} {tree : SyntaxTree}
    (gathers : Gathers letters stars tree) : tree.kind ∈ plainKinds ∧ tree.isPart = true := by
  cases gathers <;> exact ⟨by simp [plainKinds, SyntaxTree.leaf, SyntaxTree.phrase], rfl⟩

theorem declared_told {type : TypeText} {tree : SyntaxTree} (told : Told type.val tree) :
    unparse (some tree) = declaredType (some type) := by
  rw [unparse, declaredType, ← String.toList_inj, told.spelled]
  simp

theorem typed_takes {entry : ParameterText} {place tree : SyntaxTree}
    (gathers : Gathers entry.name.val entry.stars place) (typed : Typed place entry.declared tree) :
    Takes entry tree := by
  obtain ⟨stars, name, type⟩ := entry
  obtain ⟨kind, part⟩ := gathers.plain
  cases typed with
  | bare =>
    refine ⟨part, gathers.calm, ?_, ?_⟩
    · rw [judged, if_neg]
      · exact kind
      · intro same
        rw [same] at kind
        exact absurd kind (by decide)
    · have name := gathers.name
      cases gathers <;> exact congrArg some (congrArg (Parameter.mk · "") name)
  | @typed type declared told =>
    refine ⟨rfl, .node (by decide) rfl ?_, ?_, ?_⟩
    · simp only [List.forall_mem_cons]
      exact ⟨gathers.calm, told.calm, by simp⟩
    · rw [judged, SyntaxTree.kind_node, if_pos rfl, SyntaxTree.parts]
      simpa [part] using kind
    · rw [parameter?]
      simp only [SyntaxTree.kind_node, SyntaxTree.parts, SyntaxTree.children_node, List.map_cons,
        List.filter_cons_of_pos part, List.head?_cons, Option.map_some]
      have field : (SyntaxTree.node .typedParameter ""
          [(.plain, place), (.declared, declared)]).field? .declared = some declared := rfl
      rw [field, gathers.name, declared_told told]
      rfl

-- No parameter is given a default, so none can be missing after one.
theorem none_required {entries : List ParameterText} {trees : List SyntaxTree}
    (takes : List.Forall₂ Takes entries trees) :
    requiredAfterDefault false trees = false := by
  induction takes with
  | nil => rfl
  | @cons entry tree entries trees first _ ih =>
    have plain := first.plain
    simp only [plainKinds, List.mem_cons, List.not_mem_nil, or_false] at plain
    rw [requiredAfterDefault]
    rcases plain with kind | kind | kind
    · simp [kind, ih]
    · simp [kind]
    · simp [kind]

section

variable {descent : Descent} {size : Nat} {indents : List Nat} {gap rest : List Char}

theorem type_text_apart (declared : Option TypeText) (apart : Apart rest) :
    Apart (typeSuffix declared ++ rest) := by
  cases declared with
  | none => exact apart
  | some type => exact apart_cons _ (by decide)

theorem type_rest_read (grasps : Grasps descent size) (place : SyntaxTree)
    {declared : Option TypeText} (short : ∀ type ∈ declared, type.val.length ≤ size)
    (ends : EndsItem rest indents) :
    Runs (typeRest descent true place)
      ⟨typeSuffix declared ++ rest, indents⟩ ⟨rest, indents⟩
      (Typed place declared) := by
  rw [typeRest, if_pos rfl]
  cases declared with
  | none => exact (ends .bracketed).refused (by decide) (.pure .bare)
  | some type =>
    have colon : Meets (':' :: ' ' :: (type.val ++ rest)) none (.mark .colon)
        (' ' :: (type.val ++ rest)) := (Shows.colon (by simp)).now
    have stops : Ends (typeStops true) ⟨rest, indents⟩ .bracketed :=
      (ends .bracketed).mono (by decide)
    have read := grasps.demand_type type.property (short type rfl) stops
    exact .accepted colon (read.bind fun tree told => .pure (.typed told))

theorem gathered_read (grasps : Grasps descent size) {letters : List Char} (name : IsName letters)
    (kind : Kind) (before : Cursor) (apart : Apart rest)
    (ends : Ends (.mark .bar :: stops) ⟨rest, indents⟩ .bracketed) :
    Runs (gathered descent true kind before) ⟨letters ++ rest, indents⟩ ⟨rest, indents⟩
      fun tree => ∃ spanned,
        tree = .phrase kind spanned [.leaf .identifier (String.ofList letters)] := by
  obtain ⟨keyword, opens, shows_⟩ := name_shows name apart
  have read := grasps.primary_name name leads_nothing ends
  refine (Runs.demand shows_.now (by simp) read).next ?_
  refine (Runs.require rfl).bind fun _ _ => ?_
  exact (Runs.textSince before).bind fun spanned _ => .pure ⟨spanned, rfl⟩

theorem place_ends (declared : Option TypeText) (ends : EndsItem rest indents) :
    Ends (.mark .bar :: stops)
      ⟨typeSuffix declared ++ rest, indents⟩ .bracketed := by
  cases declared with
  | none => exact (ends .bracketed).mono (by decide)
  | some type =>
    exact ⟨apart_cons _ (by decide), .mark .colon, by decide, .ahead (Shows.colon (by simp)).now⟩

theorem name_next (name : Name) (text : List Char) :
    ∀ d ∈ (name.val ++ text).head?, d ≠ '=' ∧ d ≠ '*' := by
  obtain ⟨c, letters, split, start⟩ := name.property.word.begins
  rw [split]
  rintro d ⟨⟩
  exact (start_plain start).2.2

theorem parameter_begins (entry : ParameterText) (apart : Apart rest) :
    ∃ lexeme after, begins lexeme = true ∧ Shows (entry.text ++ rest) lexeme after := by
  obtain ⟨stars, name, declared⟩ := entry
  have next := name_next name (typeSuffix declared ++ rest)
  rw [ParameterText.text, List.append_assoc, List.append_assoc]
  cases stars with
  | none =>
    obtain ⟨keyword, opens, shows_⟩ := name_shows name.property (type_text_apart declared apart)
    exact ⟨_, _, rfl, shows_⟩
  | one => exact ⟨.mark .star, _, rfl, shows_sign (by simp) next⟩
  | two => exact ⟨_, _, rfl, shows_double_star fun d member => (next d member).1⟩

theorem parameter_read (grasps : Grasps descent size) (entry : ParameterText)
    (short : entry.text.length ≤ size) (leads : Leads gap none) (ends : EndsItem rest indents) :
    Runs (parameter descent true) ⟨gap ++ (entry.text ++ rest), indents⟩ ⟨rest, indents⟩
      (Takes entry) := by
  obtain ⟨stars, name, declared⟩ := entry
  have shorter : ∀ type ∈ declared, type.val.length ≤ size := by
    rintro type rfl
    simp only [ParameterText.text, typeSuffix, Option.elim, List.length_append,
      List.length_cons] at short
    omega
  have apart := type_text_apart declared (ends .bracketed).apart
  have place := place_ends declared ends
  have after := fun tree => type_rest_read grasps tree shorter ends
  have next := name_next name (typeSuffix declared ++ rest)
  rw [ParameterText.text, List.append_assoc, List.append_assoc]
  refine Runs.cursor.bind fun before lies => ?_
  cases stars with
  | none =>
    obtain ⟨keyword, opens, shows_⟩ := name_shows name.property apart
    rw [lies.ahead (leads shows_)]
    refine (Runs.skip (leads shows_)).bind fun _ _ => ?_
    refine (after _).bind fun tree typed => ?_
    exact (ends .bracketed).refused (by decide) (.pure (typed_takes .none typed))
  | one =>
    obtain ⟨keyword, opens, shows_⟩ := name_shows name.property apart
    have star := leads (shows_sign (by simp) next : Shows ('*' :: _) (.mark .star) _)
    rw [lies.ahead star]
    refine (Runs.skip star).bind fun _ _ => ?_
    refine (Runs.lead (.ahead shows_.now) (by simp)).next ?_
    rw [beginsPlace, if_pos rfl]
    refine (gathered_read grasps name.property _ before apart place).bind fun tree held => ?_
    obtain ⟨spanned, rfl⟩ := held
    exact (after _).mono fun tree typed => typed_takes (.one spanned) typed
  | two =>
    have stars := leads (shows_double_star fun d member => (next d member).1)
    rw [lies.ahead stars]
    refine (Runs.skip stars).bind fun _ _ => ?_
    refine (gathered_read grasps name.property _ before apart place).bind fun tree held => ?_
    obtain ⟨spanned, rfl⟩ := held
    exact (after _).mono fun tree typed => typed_takes (.two spanned) typed

theorem next_parameter_read (grasps : Grasps descent size) (entry : ParameterText)
    (short : entry.text.length ≤ size) (found : List SyntaxTree) (ends : EndsItem rest indents) :
    Runs (nextParameter descent true found) ⟨',' :: ' ' :: (entry.text ++ rest), indents⟩
      ⟨rest, indents⟩
      (Sum.elim (fun next => ∃ tree, next = found ++ [tree] ∧ Takes entry tree)
        fun _ => False) := by
  obtain ⟨lexeme, after, opens, shows_⟩ := parameter_begins entry (ends .bracketed).apart
  refine .accepted (Shows.comma _).now ?_
  refine (Runs.follow (.ahead shows_.spaced)).next ?_
  rw [if_pos opens]
  exact (parameter_read grasps entry short leads_space ends).bind fun tree takes =>
    .pure ⟨tree, rfl, takes⟩

theorem listed_map_cons {ι : Type} (text : ι → List Char) (first : ι) (items : List ι) :
    listed ((first :: items).map text) =
      text first ++ items.flatMap fun item => ',' :: ' ' :: text item := by
  rw [List.map_cons, listed_cons, List.flatMap_map]

theorem parameters_read (grasps : Grasps descent size) {entries : List ParameterText}
    (short : (listed (entries.map ParameterText.text)).length < size) :
    Runs (parameters descent)
      ⟨'(' :: (listed (entries.map ParameterText.text) ++ ')' :: rest), indents⟩ ⟨rest, indents⟩
      fun tree => ∃ trees, tree = .phrase .parameters "" trees ∧
        List.Forall₂ Takes entries trees := by
  have enough := grasps.limit
  have fits : ∀ entry ∈ entries, entry.text.length ≤ size := by
    intro entry member
    have inside := item_length (List.mem_map_of_mem (f := ParameterText.text) member)
    omega
  refine (Runs.expect (Shows.leftParen _).now).bind fun _ _ => ?_
  cases entries with
  | nil => exact .accepted (Shows.rightParen rest).now (.pure ⟨[], rfl, .nil⟩)
  | cons first entries =>
    obtain ⟨firstFits, laterFits⟩ := List.forall_mem_cons.mp fits
    have count := listed_length ((first :: entries).map ParameterText.text)
    rw [List.length_map, List.length_cons] at count
    have last := paren_ends rest indents
    have ends := items_end ParameterText.text last entries
    obtain ⟨lexeme, after, opens, shows_⟩ := parameter_begins first (ends .bracketed).apart
    rw [listed_map_cons, List.append_assoc]
    refine .refused (.ahead shows_.now) ?_ ?_
    · rintro rfl
      exact absurd opens (by decide)
    have series : Runs (series descent true)
        ⟨first.text ++ (entries.flatMap (fun entry => ',' :: ' ' :: entry.text) ++ ')' :: rest),
          indents⟩ ⟨')' :: rest, indents⟩ (List.Forall₂ Takes (first :: entries)) := by
      refine (parameter_read grasps first firstFits leads_nothing ends).bind fun tree takes => ?_
      refine items_run ParameterText.text last (fun found => ?_)
        (fun entry member found left => ?_) (.cons takes .nil) (by omega)
      · exact .refused (.ahead (Shows.rightParen rest).now) (by decide) (.pure rfl)
      · exact next_parameter_read grasps entry (laterFits entry member) found
    refine series.bind fun trees takes => ?_
    exact (Runs.expect (Shows.rightParen rest).now).bind fun _ _ => .pure ⟨trees, rfl, takes⟩

end

end SourceDiagram.ObjectModel
