import Mathlib.Data.List.TakeWhile
import SourceDiagram.Proofs.CommandLine.Run
import SourceDiagram.Proofs.Substitution

set_option autoImplicit false

namespace SourceDiagram

def Definition.written (definition : Definition) : String :=
  definition.token ++ "=" ++ definition.value

structure Definition.Writable (definition : Definition) : Prop where
  present : definition.token ≠ ""
  plain : '=' ∉ definition.token.toList

def IsDefinition (text : String) : Prop :=
  '=' ∈ text.toList ∧ text.toList.head? ≠ some '='

theorem definition_of_split {token : List Char} (plain : '=' ∉ token) (value : List Char)
    {text : String} (split : text.toList = token ++ '=' :: value) :
    Definition.ofText? text =
      if token.isEmpty then none else some ⟨String.ofList token, String.ofList value⟩ := by
  have before : ∀ c ∈ token, (c != '=') = true := by
    intro c member
    simpa using fun same : c = '=' => plain (same ▸ member)
  have first : text.toList.takeWhile (· != '=') = token := by
    rw [split, List.takeWhile_append_of_pos before, List.takeWhile_cons_of_neg (by decide),
      List.append_nil]
  have behind : text.toList.dropWhile (· != '=') = '=' :: value := by
    rw [split, List.dropWhile_append_of_pos before, List.dropWhile_cons_of_neg (by decide)]
  simp only [Definition.ofText?, first, behind]

theorem undefined_without_sign {text : String} (missing : '=' ∉ text.toList) :
    Definition.ofText? text = none := by
  have all : text.toList.dropWhile (· != '=') = [] := by
    rw [List.dropWhile_eq_nil_iff]
    intro c member
    simpa using fun same : c = '=' => missing (same ▸ member)
  simp only [Definition.ofText?, all]

theorem written_characters (definition : Definition) :
    definition.written.toList = definition.token.toList ++ '=' :: definition.value.toList := by
  simp [Definition.written]

theorem defined_iff {text : String} {definition : Definition} :
    Definition.ofText? text = some definition ↔
      definition.Writable ∧ text = definition.written := by
  constructor
  · intro defined
    by_cases signed : '=' ∈ text.toList
    · obtain ⟨token, value, split, plain⟩ := List.eq_append_cons_of_mem signed
      rw [definition_of_split plain value split] at defined
      by_cases empty : token.isEmpty = true
      · rw [if_pos empty] at defined
        cases defined
      · rw [if_neg empty] at defined
        cases defined
        have whole : text = Definition.written ⟨String.ofList token, String.ofList value⟩ := by
          rw [← String.toList_inj, written_characters, split]
          simp
        exact ⟨⟨by simpa using empty, by simpa using plain⟩, whole⟩
    · rw [undefined_without_sign signed] at defined
      cases defined
  · rintro ⟨⟨present, plain⟩, rfl⟩
    have token : ¬ definition.token.toList.isEmpty = true := by
      simpa using present
    rw [definition_of_split plain _ (written_characters definition), if_neg token,
      String.ofList_toList, String.ofList_toList]

theorem is_definition_iff {text : String} :
    IsDefinition text ↔ ∃ definition, Definition.ofText? text = some definition := by
  constructor
  · rintro ⟨signed, first⟩
    obtain ⟨token, value, split, plain⟩ := List.eq_append_cons_of_mem signed
    have present : ¬ token.isEmpty = true := by
      intro empty
      rw [split, List.isEmpty_iff.mp empty] at first
      exact first rfl
    exact ⟨_, by rw [definition_of_split plain value split, if_neg present]⟩
  · rintro ⟨definition, defined⟩
    obtain ⟨⟨present, plain⟩, rfl⟩ := defined_iff.mp defined
    constructor
    · simp [written_characters]
    · rw [written_characters]
      obtain ⟨c, cs, split⟩ := List.exists_cons_of_ne_nil (characters_present present)
      rw [split] at plain ⊢
      rintro first
      cases first
      exact plain List.mem_cons_self

namespace CommandLine

theorem texts_defined {texts : List String} {definitions : List Definition} :
    Definition.ofTexts texts = .ok definitions ↔
      texts.map Definition.ofText? = definitions.map some := by
  induction texts generalizing definitions with
  | nil => cases definitions <;> simp [Definition.ofTexts]
  | cons text rest ih =>
    rw [Definition.ofTexts]
    cases defined : Definition.ofText? text with
    | none => cases definitions <;> simp [defined]
    | some definition =>
      cases definitions with
      | nil => cases Definition.ofTexts rest <;> simp [Except.map]
      | cons head tail =>
        simp only [List.map_cons, defined, List.cons.injEq, Option.some.injEq, ← ih]
        cases Definition.ofTexts rest <;> simp [Except.map]

theorem texts_undefined {texts : List String} {text : String} :
    Definition.ofTexts texts = .error text ↔
      texts.find? (fun text => (Definition.ofText? text).isNone) = some text := by
  induction texts with
  | nil => simp [Definition.ofTexts]
  | cons first rest ih =>
    rw [Definition.ofTexts]
    cases defined : Definition.ofText? first with
    | none => simp [defined]
    | some definition =>
      rw [List.find?_cons_of_neg (by simp [defined]), ← ih]
      cases Definition.ofTexts rest <;> simp [Except.map]

theorem collect_defined (configured : List Definition) {texts : List String}
    {definitions : List Definition}
    (defined : texts.map Definition.ofText? = definitions.map some) :
    collectDefinitions configured texts = .ok (configured ++ definitions) := by
  rw [collectDefinitions, texts_defined.mpr defined]
  rfl

theorem collect_undefined (configured : List Definition) {texts : List String} {text : String}
    (undefined : texts.find? (fun text => (Definition.ofText? text).isNone) = some text) :
    collectDefinitions configured texts = .error text := by
  rw [collectDefinitions, texts_undefined.mpr undefined]
  rfl

theorem collected_iff {configured collected : List Definition} {texts : List String} :
    collectDefinitions configured texts = .ok collected ↔
      ∃ definitions, collected = configured ++ definitions ∧
        texts.map Definition.ofText? = definitions.map some := by
  constructor
  · intro succeeded
    cases read : Definition.ofTexts texts with
    | error text => simp [collectDefinitions, read, Except.map] at succeeded
    | ok definitions =>
      have defined := texts_defined.mp read
      have known := collect_defined configured defined
      rw [succeeded] at known
      exact ⟨definitions, Except.ok.inj known, defined⟩
  · rintro ⟨definitions, rfl, defined⟩
    exact collect_defined configured defined

theorem uncollected_iff {configured : List Definition} {texts : List String} {text : String} :
    collectDefinitions configured texts = .error text ↔
      ∃ before after, texts = before ++ text :: after ∧ (∀ earlier ∈ before, IsDefinition earlier) ∧
        ¬ IsDefinition text := by
  have told : collectDefinitions configured texts = .error text ↔
      texts.find? (fun text => (Definition.ofText? text).isNone) = some text := by
    rw [← texts_undefined, collectDefinitions]
    cases Definition.ofTexts texts <;> simp [Except.map]
  have judged : ∀ text, IsDefinition text ↔ (Definition.ofText? text).isSome = true := by
    intro text
    rw [is_definition_iff, Option.isSome_iff_exists]
  rw [told, List.find?_eq_some_iff_append]
  constructor
  · rintro ⟨undefined, before, after, split, defined⟩
    exact ⟨before, after, split, by simpa [judged] using defined, by simpa [judged] using undefined⟩
  · rintro ⟨before, after, split, defined, undefined⟩
    exact ⟨by simpa [judged] using undefined, before, after, split, by simpa [judged] using defined⟩

-- The configured definitions come first and then one for each text, in order, from which its text
-- is put together again. If there is a text that is none, the first such text is told, and the
-- definitions of the run fail with it. Every list of definitions that can be written is read.
theorem definitions_read_without_loss (configuration : Configuration) (texts : List String) :
    ((∃ collected, collectDefinitions configuration.definitions texts = .ok collected) ↔
      ∀ text ∈ texts, IsDefinition text) ∧
    (∀ collected, collectDefinitions configuration.definitions texts = .ok collected →
      ∃ definitions, collected = configuration.definitions ++ definitions ∧
        List.Forall₂ (fun text definition => definition.Writable ∧ text = definition.written) texts
          definitions) ∧
    (∀ text, collectDefinitions configuration.definitions texts = .error text ↔
      ∃ before after, texts = before ++ text :: after ∧ (∀ earlier ∈ before, IsDefinition earlier) ∧
        ¬ IsDefinition text) ∧
    (∀ world, Ends (readDefinitions World.host configuration.definitions texts) world
      ((collectDefinitions configuration.definitions texts).mapError .definition) world) ∧
    ∀ definitions : List Definition, (∀ definition ∈ definitions, definition.Writable) →
      collectDefinitions configuration.definitions (definitions.map Definition.written) =
        .ok (configuration.definitions ++ definitions) := by
  refine ⟨⟨?_, ?_⟩, ?_, fun text => uncollected_iff, definitions_end _ texts, ?_⟩
  · rintro ⟨collected, succeeded⟩ text member
    obtain ⟨definitions, -, defined⟩ := collected_iff.mp succeeded
    have read : Definition.ofText? text ∈ definitions.map some := by
      rw [← defined]
      exact List.mem_map_of_mem member
    obtain ⟨definition, -, found⟩ := List.mem_map.mp read
    exact is_definition_iff.mpr ⟨definition, found.symm⟩
  · intro defining
    cases read : collectDefinitions configuration.definitions texts with
    | ok collected => exact ⟨collected, rfl⟩
    | error text =>
      obtain ⟨before, after, rfl, -, undefined⟩ := uncollected_iff.mp read
      exact absurd (defining text (by simp)) undefined
  · intro collected succeeded
    obtain ⟨definitions, rfl, defined⟩ := collected_iff.mp succeeded
    rw [← List.forall₂_eq_eq_eq, List.forall₂_map_left_iff, List.forall₂_map_right_iff] at defined
    exact ⟨definitions, rfl, defined.imp fun _ _ found => defined_iff.mp found⟩
  · intro definitions writable
    apply collect_defined
    rw [List.map_map]
    apply List.map_congr_left
    intro definition member
    exact defined_iff.mpr ⟨writable definition member, rfl⟩

theorem definitions_with_signs_in_values :
    (∀ text ∈ ["A=b=c", "EMPTY="], IsDefinition text) ∧
    (∃ collected, collectDefinitions [⟨"$", "d"⟩] ["A=b=c", "EMPTY="] = .ok collected) ∧
    (∃ before after, ["A=b=c", "=x", "novalue"] = before ++ "=x" :: after ∧
      (∀ earlier ∈ before, IsDefinition earlier) ∧ ¬ IsDefinition "=x") ∧
    (∀ definition ∈ [(⟨"A", "b=c"⟩ : Definition), ⟨"EMPTY", ""⟩], definition.Writable) ∧
    collectDefinitions [⟨"$", "d"⟩] ["A=b=c", "EMPTY="] =
      .ok [⟨"$", "d"⟩, ⟨"A", "b=c"⟩, ⟨"EMPTY", ""⟩] := by
  have defining : ∀ text ∈ ["A=b=c", "EMPTY="], IsDefinition text := by
    simp [IsDefinition]
  have writable : ∀ definition ∈ [(⟨"A", "b=c"⟩ : Definition), ⟨"EMPTY", ""⟩],
      definition.Writable := by
    simp only [List.forall_mem_cons]
    exact ⟨⟨by decide, by decide⟩, ⟨by decide, by decide⟩, by simp⟩
  obtain ⟨succeeds, -, -, -, written⟩ :=
    definitions_read_without_loss ⟨none, none, none, [⟨"$", "d"⟩]⟩ ["A=b=c", "EMPTY="]
  obtain ⟨-, -, fails, -⟩ :=
    definitions_read_without_loss ⟨none, none, none, [⟨"$", "d"⟩]⟩ ["A=b=c", "=x", "novalue"]
  have refused : collectDefinitions [⟨"$", "d"⟩] ["A=b=c", "=x", "novalue"] = .error "=x" := by
    decide +kernel
  exact ⟨defining, succeeds.mpr defining, (fails "=x").mp refused, writable, written _ writable⟩

end CommandLine

end SourceDiagram
