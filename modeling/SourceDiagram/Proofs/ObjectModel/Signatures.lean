import SourceDiagram.ObjectModel.Description
import SourceDiagram.Proofs.ObjectModel.Lowering
import SourceDiagram.Proofs.Related

set_option autoImplicit false

namespace SourceDiagram.ObjectModel

open SourceDiagram.Model
open SourceDiagram.Syntax

inductive DecoratorNamed (decorator : SyntaxTree) : String → Prop where
  | plain {expression : SyntaxTree} : decorator.parts.head? = some expression →
      expression.kind = .identifier → DecoratorNamed decorator expression.text
  | dotted {expression member : SyntaxTree} : decorator.parts.head? = some expression →
      expression.kind = .attribute → expression.field? .attribute = some member →
      DecoratorNamed decorator member.text
  | other {expression : SyntaxTree} : decorator.parts.head? = some expression →
      expression.kind ≠ .identifier → expression.kind ≠ .attribute →
      DecoratorNamed decorator (unparse (some expression))

def HasDecorator (decorators : List SyntaxTree) (name : String) : Prop :=
  ∃ decorator ∈ decorators, DecoratorNamed decorator name

def TellsKind (decorator : SyntaxTree) : Prop :=
  DecoratorNamed decorator "classmethod" ∨ DecoratorNamed decorator "staticmethod"

theorem decorator_named_iff {decorator : SyntaxTree} {name : String} (present : name ≠ "") :
    decorator.parts.head?.map decoratorName = some name ↔ DecoratorNamed decorator name := by
  rw [Option.map_eq_some_iff]
  constructor
  · rintro ⟨expression, first, rfl⟩
    rw [decoratorName] at present ⊢
    by_cases plain : expression.kind = .identifier
    · rw [if_pos plain]
      exact .plain first plain
    · rw [if_neg plain] at present ⊢
      by_cases dotted : expression.kind = .attribute
      · rw [if_pos dotted] at present ⊢
        cases label : expression.field? .attribute with
        | none => exact absurd (by rw [label]) present
        | some member => exact .dotted first dotted label
      · rw [if_neg dotted]
        exact .other first plain dotted
  · intro named
    cases named with
    | plain first plain => exact ⟨_, first, by rw [decoratorName, if_pos plain]⟩
    | dotted first dotted label =>
      refine ⟨_, first, ?_⟩
      rw [decoratorName, if_neg (by simp [dotted]), if_pos dotted, label]
    | other first plain dotted =>
      exact ⟨_, first, by rw [decoratorName, if_neg plain, if_neg dotted]⟩

theorem has_decorator_iff {decorators : List SyntaxTree} {name : String} (present : name ≠ "") :
    (name ∈ decorators.filterMap fun decorator => decorator.parts.head?.map decoratorName) ↔
      HasDecorator decorators name := by
  rw [List.mem_filterMap]
  simp only [decorator_named_iff present]
  rfl

section

variable {decorators : List SyntaxTree}

theorem class_method_kind (named : HasDecorator decorators "classmethod") :
    methodKind decorators = .classMethod :=
  if_pos ((has_decorator_iff (by decide)).mpr named)

theorem static_method_kind (unnamed : ¬ HasDecorator decorators "classmethod")
    (named : HasDecorator decorators "staticmethod") : methodKind decorators = .staticMethod :=
  (if_neg (mt (has_decorator_iff (by decide)).mp unnamed)).trans
    (if_pos ((has_decorator_iff (by decide)).mpr named))

theorem instance_method_kind (unnamed : ¬ HasDecorator decorators "classmethod")
    (unfixed : ¬ HasDecorator decorators "staticmethod") :
    methodKind decorators = .instanceMethod :=
  (if_neg (mt (has_decorator_iff (by decide)).mp unnamed)).trans
    (if_neg (mt (has_decorator_iff (by decide)).mp unfixed))

theorem method_kind_of_tellers {others : List SyntaxTree}
    (same : ∀ decorator, TellsKind decorator → (decorator ∈ others ↔ decorator ∈ decorators)) :
    methodKind others = methodKind decorators := by
  have named : HasDecorator others "classmethod" ↔ HasDecorator decorators "classmethod" :=
    exists_congr fun decorator => and_congr_left fun teller => same decorator (.inl teller)
  have fixed : HasDecorator others "staticmethod" ↔ HasDecorator decorators "staticmethod" :=
    exists_congr fun decorator => and_congr_left fun teller => same decorator (.inr teller)
  by_cases classMethod : HasDecorator decorators "classmethod"
  · rw [class_method_kind classMethod, class_method_kind (named.mpr classMethod)]
  · by_cases staticMethod : HasDecorator decorators "staticmethod"
    · rw [static_method_kind classMethod staticMethod,
        static_method_kind (mt named.mp classMethod) (fixed.mpr staticMethod)]
    · rw [instance_method_kind classMethod staticMethod,
        instance_method_kind (mt named.mp classMethod) (mt fixed.mp staticMethod)]

end

inductive TargetNamed (target : SyntaxTree) : String → Prop where
  | plain : target.kind = .identifier → TargetNamed target target.text
  | starred {inner : SyntaxTree} : target.kind = .listSplatPattern →
      target.parts.head? = some inner → TargetNamed target ("*" ++ inner.text)
  | doublyStarred {inner : SyntaxTree} : target.kind = .dictionarySplatPattern →
      target.parts.head? = some inner → TargetNamed target ("**" ++ inner.text)

inductive Entry (entry : SyntaxTree) : SyntaxTree → Option SyntaxTree → Prop where
  | bare : entry.kind ∈ [.identifier, .listSplatPattern, .dictionarySplatPattern] →
      Entry entry entry none
  | typed {target : SyntaxTree} : entry.kind = .typedParameter →
      entry.parts.head? = some target → Entry entry target (entry.field? .declared)
  | defaulted {target : SyntaxTree} : entry.kind ∈ [.defaultParameter, .typedDefaultParameter] →
      entry.field? .name = some target → Entry entry target (entry.field? .declared)

inductive DeclaresParameter (entry : SyntaxTree) : Parameter → Prop where
  | intro {target : SyntaxTree} {type : Option SyntaxTree} {name : String} :
      Entry entry target type → TargetNamed target name → DeclaresParameter entry ⟨name, unparse type⟩

def isSeparator (entry : SyntaxTree) : Bool :=
  entry.kind = .keywordSeparator || entry.kind = .positionalSeparator

def entriesOf (function : SyntaxTree) : List SyntaxTree :=
  match function.field? .parameters with
  | some parameters => parameters.parts
  | none => []

def declaringEntries (function : SyntaxTree) : List SyntaxTree :=
  (entriesOf function).filter fun entry => !isSeparator entry

theorem parameter_name_eq (target : SyntaxTree) :
    parameterName target =
      match target.kind with
      | .listSplatPattern => "*" ++ (target.parts.head?.map SyntaxTree.text).getD ""
      | .dictionarySplatPattern => "**" ++ (target.parts.head?.map SyntaxTree.text).getD ""
      | _ => target.text := by
  rw [parameterName]
  cases target.parts <;> rfl

theorem parameter_name_congr {target other : SyntaxTree} (kind : other.kind = target.kind)
    (texts : textsOf other = textsOf target)
    (plain : isStarred target = false → other.text = target.text) :
    parameterName other = parameterName target := by
  have behind : isStarred target = true →
      other.parts.head?.map SyntaxTree.text = target.parts.head?.map SyntaxTree.text := by
    intro starred
    have starredToo : isStarred other = true := by rw [isStarred, kind, ← isStarred, starred]
    have same := congrArg Texts.target texts
    simpa only [textsOf, if_pos starred, if_pos starredToo] using same
  rw [parameter_name_eq, parameter_name_eq target, kind]
  split
  case h_1 list => rw [behind (by simp [isStarred, list])]
  case h_2 dictionary => rw [behind (by simp [isStarred, dictionary])]
  case h_3 list dictionary =>
    refine plain ?_
    rw [isStarred, decide_eq_false list, decide_eq_false dictionary, Bool.or_self]

theorem parameter_congr {entry other : SyntaxTree} (kind : other.kind = entry.kind)
    (texts : textsOf other = textsOf entry)
    (target : entry.kind = .typedParameter →
      other.parts.head?.map parameterName = entry.parts.head?.map parameterName)
    (name : (other.field? .name).map parameterName = (entry.field? .name).map parameterName)
    (type : unparse (other.field? .declared) = unparse (entry.field? .declared)) :
    parameter? other = parameter? entry := by
  have bare : entry.kind ∈ [.identifier, .listSplatPattern, .dictionarySplatPattern] →
      parameterName other = parameterName entry := by
    intro bare
    refine parameter_name_congr kind texts fun unstarred => ?_
    have plain : entry.kind = .identifier := by
      simp only [isStarred, Bool.or_eq_false_iff, decide_eq_false_iff_not] at unstarred
      simpa [unstarred] using bare
    have same := congrArg Texts.own texts
    simpa [textsOf, kind, plain] using same
  have given : ∀ type, (fun target => (⟨parameterName target, type⟩ : Parameter)) =
      (⟨·, type⟩) ∘ parameterName := fun _ => rfl
  have named : parameter?.named other = parameter?.named entry := by
    rw [parameter?.named, parameter?.named, given, given, ← Option.map_map, ← Option.map_map, name,
      type]
  rw [parameter?, parameter?, kind]
  split
  case h_1 plain => rw [bare (by simp [plain])]
  case h_2 list => rw [bare (by simp [list])]
  case h_3 dictionary => rw [bare (by simp [dictionary])]
  case h_4 typed => rw [given, given, ← Option.map_map, ← Option.map_map, target typed, type]
  case h_5 => exact named
  case h_6 => exact named
  case h_7 => rfl

theorem target_named {target : SyntaxTree} {name : String} (named : TargetNamed target name) :
    parameterName target = name := by
  cases named with
  | plain kind => rw [parameterName, kind]
  | starred kind first =>
    obtain ⟨rest, parts⟩ := List.head?_eq_some_iff.mp first
    rw [parameterName, kind, parts]
  | doublyStarred kind first =>
    obtain ⟨rest, parts⟩ := List.head?_eq_some_iff.mp first
    rw [parameterName, kind, parts]

theorem parameter_of_entry {entry target : SyntaxTree} {type : Option SyntaxTree}
    (told : Entry entry target type) :
    parameter? entry = some ⟨parameterName target, unparse type⟩ := by
  cases told with
  | bare kind =>
    simp only [List.mem_cons, List.not_mem_nil, or_false] at kind
    rcases kind with kind | kind | kind <;> rw [parameter?, kind] <;> rfl
  | typed kind first => rw [parameter?, kind, first]; rfl
  | defaulted kind name =>
    simp only [List.mem_cons, List.not_mem_nil, or_false] at kind
    rcases kind with kind | kind <;> rw [parameter?, kind, parameter?.named, name] <;> rfl

theorem parameter_declared {entry : SyntaxTree} {parameter : Parameter}
    (declares : DeclaresParameter entry parameter) : parameter? entry = some parameter := by
  cases declares with
  | intro told named => rw [parameter_of_entry told, target_named named]

theorem separator_declares_none {entry : SyntaxTree} (separator : isSeparator entry = true) :
    parameter? entry = none := by
  rw [isSeparator, Bool.or_eq_true, decide_eq_true_eq, decide_eq_true_eq] at separator
  rcases separator with kind | kind <;> rw [parameter?, kind]

theorem parameters_of_declaring (function : SyntaxTree) :
    (entriesOf function).filterMap parameter? = (declaringEntries function).filterMap parameter? := by
  rw [declaringEntries, List.filterMap_filter]
  refine List.filterMap_congr fun entry _ => ?_
  cases separator : isSeparator entry with
  | true => simp [separator_declares_none separator]
  | false => rfl

theorem method_of_entries (function : SyntaxTree) (decorators : List SyntaxTree) :
    methodOf function decorators =
      { name := ((function.field? .name).map SyntaxTree.text).getD ""
        parameters := withoutReceiver (methodKind decorators)
          ((entriesOf function).filterMap parameter?)
        returnType := unparse (function.field? .returnType)
        kind := methodKind decorators } := by
  rw [methodOf, entriesOf]
  cases function.field? .name <;> cases function.field? .parameters <;> rfl

theorem receiver_removed {kind : MethodKind} {first : Parameter} {rest : List Parameter}
    (receiver : kind.receiver? = some first.name) :
    withoutReceiver kind (first :: rest) = rest := by
  unfold withoutReceiver
  rw [receiver]
  exact if_pos rfl

theorem others_kept {kind : MethodKind} {parameters : List Parameter}
    (other : ∀ first ∈ parameters.head?, kind.receiver? ≠ some first.name) :
    withoutReceiver kind parameters = parameters := by
  cases parameters with
  | nil => cases kind <;> rfl
  | cons first rest =>
    unfold withoutReceiver
    cases receiver : kind.receiver? with
    | none => rfl
    | some name => exact if_neg fun same => other first rfl (by rw [receiver, same])

def SameButDefault (entry other : SyntaxTree) : Prop :=
  ∃ target type, Entry entry target type ∧ Entry other target type

structure SameButDefaults (function other : SyntaxTree) : Prop where
  name : other.field? .name = function.field? .name
  returns : other.field? .returnType = function.field? .returnType
  entries : List.Forall₂ SameButDefault (declaringEntries function) (declaringEntries other)

theorem defaults_untold {function other : SyntaxTree} (same : SameButDefaults function other)
    (decorators : List SyntaxTree) : methodOf other decorators = methodOf function decorators := by
  have parameters : (declaringEntries other).filterMap parameter? =
      (declaringEntries function).filterMap parameter? := by
    refine filter_map_related same.entries fun entry changed entries => ?_
    obtain ⟨target, type, told, retold⟩ := entries
    rw [parameter_of_entry told, parameter_of_entry retold]
  rw [method_of_entries, method_of_entries function, parameters_of_declaring other, parameters,
    parameters_of_declaring, same.name, same.returns]

-- A decorator named `classmethod` makes a class method, one named `staticmethod` else a static one,
-- and any other decorators and any order of them give the same method. Each entry but the bare stars
-- and slashes gives its parameter, in order, and only the first may be left out: it is if it is named
-- as the receiver of the kind, which a static method has none of. Defaults, stars and slashes may
-- come and go.
theorem methods_follow_targets_and_types {function : SyntaxTree}
    (declares : ∀ entry ∈ declaringEntries function, ∃ parameter, DeclaresParameter entry parameter)
    (decorators : List SyntaxTree) :
    (HasDecorator decorators "classmethod" →
      (methodOf function decorators).kind = .classMethod) ∧
    (¬ HasDecorator decorators "classmethod" → HasDecorator decorators "staticmethod" →
      (methodOf function decorators).kind = .staticMethod) ∧
    (¬ HasDecorator decorators "classmethod" → ¬ HasDecorator decorators "staticmethod" →
      (methodOf function decorators).kind = .instanceMethod) ∧
    (∀ others, (∀ decorator, TellsKind decorator →
        (decorator ∈ others ↔ decorator ∈ decorators)) →
      methodOf function others = methodOf function decorators) ∧
    (∃ declared, List.Forall₂ DeclaresParameter (declaringEntries function) declared ∧
      (∀ first rest, declared = first :: rest →
        (methodOf function decorators).kind.receiver? = some first.name →
        (methodOf function decorators).parameters = rest) ∧
      ((∀ first ∈ declared.head?,
          (methodOf function decorators).kind.receiver? ≠ some first.name) →
        (methodOf function decorators).parameters = declared) ∧
      ((methodOf function decorators).kind = .staticMethod →
        (methodOf function decorators).parameters = declared)) ∧
    (∀ other, SameButDefaults function other →
      methodOf other decorators = methodOf function decorators) := by
  have told := method_of_entries function decorators
  have kind : (methodOf function decorators).kind = methodKind decorators := by rw [told]
  refine ⟨?_, ?_, ?_, ?_, ?_, fun other same => defaults_untold same decorators⟩
  · exact fun named => kind.trans (class_method_kind named)
  · exact fun unnamed named => kind.trans (static_method_kind unnamed named)
  · exact fun unnamed unfixed => kind.trans (instance_method_kind unnamed unfixed)
  · intro others same
    rw [method_of_entries, told, method_kind_of_tellers same]
  · obtain ⟨declared, each⟩ := exists_each declares
    have parameters : (methodOf function decorators).parameters =
        withoutReceiver (methodOf function decorators).kind declared := by
      have all := filter_map_related each (f := some) (g := parameter?) fun _ _ given =>
        (parameter_declared given).symm
      rw [kind, told, parameters_of_declaring, ← all, List.filterMap_some]
    refine ⟨declared, each, ?_, ?_, ?_⟩
    · rintro first rest rfl receiver
      rw [parameters, receiver_removed receiver]
    · exact fun other => parameters.trans (others_kept other)
    · intro static
      rw [parameters, static]
      exact others_kept fun _ _ => nofun

def givenType (name : String) : SyntaxTree :=
  .phrase .typeNode name [.leaf .identifier name]

def deepEntry : SyntaxTree :=
  .node .typedParameter "" [(.plain, .leaf .identifier "deep"), (.declared, givenType "bool")]

def deepByDefault : SyntaxTree :=
  .node .typedDefaultParameter "" [(.name, .leaf .identifier "deep"),
    (.declared, givenType "bool"), (.value, .leaf .trueLiteral "True")]

def restEntry : SyntaxTree :=
  .node .typedParameter ""
    [(.plain, .phrase .dictionarySplatPattern "**rest" [.leaf .identifier "rest"]),
      (.declared, givenType "Any")]

def copyMethod (entries : List SyntaxTree) : SyntaxTree :=
  .node .functionDefinition "" [(.name, .leaf .identifier "copy"),
    (.parameters, .phrase .parameters "" (.leaf .identifier "cls" :: entries)),
    (.body, .phrase .block "" [])]

def keywordCopy : SyntaxTree :=
  copyMethod [.leaf .keywordSeparator "*", deepByDefault, restEntry]

def plainCopy : SyntaxTree :=
  copyMethod [deepEntry, restEntry]

def classMark : SyntaxTree :=
  .phrase .decorator "" [.leaf .identifier "classmethod"]

def callMark : SyntaxTree :=
  .phrase .decorator "" [.phrase .call "" [.leaf .identifier "staticmethod"]]

theorem copy_method_of_class :
    (∀ entry ∈ declaringEntries keywordCopy, ∃ parameter, DeclaresParameter entry parameter) ∧
    methodOf keywordCopy [callMark, classMark] =
      ⟨"copy", [⟨"deep", "bool"⟩, ⟨"**rest", "Any"⟩], "", .classMethod⟩ ∧
    methodOf plainCopy [callMark, classMark] = methodOf keywordCopy [callMark, classMark] := by
  have declares : ∀ entry ∈ declaringEntries keywordCopy,
      ∃ parameter, DeclaresParameter entry parameter := by
    refine List.forall_mem_cons.mpr ⟨⟨_, .intro (.bare (by decide)) (.plain rfl)⟩, ?_⟩
    refine List.forall_mem_cons.mpr ⟨⟨_, .intro (.defaulted (by decide) rfl) (.plain rfl)⟩, ?_⟩
    exact List.forall_mem_singleton.mpr ⟨_, .intro (.typed rfl rfl) (.doublyStarred rfl rfl)⟩
  have same : SameButDefaults keywordCopy plainCopy :=
    ⟨rfl, rfl, .cons ⟨_, _, .bare (by decide), .bare (by decide)⟩
      (.cons ⟨_, _, .defaulted (by decide) rfl, .typed rfl rfl⟩
        (.cons ⟨_, _, .typed rfl rfl, .typed rfl rfl⟩ .nil))⟩
  obtain ⟨-, -, -, -, -, alike⟩ := methods_follow_targets_and_types declares [callMark, classMark]
  exact ⟨declares, by decide, alike plainCopy same⟩

end SourceDiagram.ObjectModel
