import SourceDiagram.Proofs.ObjectModel.Spelling
import SourceDiagram.Proofs.Syntax.Lexing
import SourceDiagram.Proofs.Text.Blank
import SourceDiagram.Relation

set_option autoImplicit false

namespace SourceDiagram.ObjectModel

open SourceDiagram.Model
open SourceDiagram.Syntax
open SourceDiagram.Text

inductive Nominal : Expr → Prop where
  | name {text : String} : IsWord text.toList → Nominal (.name text)
  | member {value : Expr} {label : String} : Nominal value → IsWord label.toList →
      Nominal (.member value label)
  | subscript {value : Expr} {arguments : List Expr} : Nominal value → arguments ≠ [] →
      (∀ argument ∈ arguments, Nominal argument) → Nominal (.subscript value arguments)
  | list {items : List Expr} : (∀ item ∈ items, Nominal item) → Nominal (.list items)
  | union {left right : Expr} : Nominal left → Nominal right → Nominal (.union left right)

-- An expression that another one begins with: itself, or what comes before its last member, its
-- last arguments or its last alternative.
inductive Begins (start : Expr) : Expr → Prop where
  | here : Begins start start
  | member {value : Expr} {label : String} : Begins start value →
      Begins start (.member value label)
  | subscript {value : Expr} {arguments : List Expr} : Begins start value →
      Begins start (.subscript value arguments)
  | union {left right : Expr} : Begins start left → Begins start (.union left right)

def spellings (part : String) : List Expr :=
  [.name part, .literal ("\"" ++ part ++ "\""), .literal ("'" ++ part ++ "'")]

-- The types that name a part: a spelling of its name, or a wrapper with it as the first argument.
inductive Names (part : String) : Expr → Prop where
  | alone {leaf : Expr} : leaf ∈ spellings part → Names part leaf
  | wrapped {wrapper : String} {leaf : Expr} {rest : List Expr} : wrapper ∈ wrapperNames →
      leaf ∈ spellings part → Names part (.subscript (.name wrapper) (leaf :: rest))

def stripped (text : List Char) : List Char :=
  trimBoth (· == '\'') (trimBoth (· == '"') (trim (trimEnd (· == ']') (text.takeWhile (· != ',')))))

theorem bare_name_eq (expr : Expr) :
    (bareName expr.text).toList = stripped (withoutWrapper expr.letters) := by
  rw [bareName, String.toList_ofList]
  rfl

theorem wrapper_removed {wrapper : String} (known : wrapper ∈ wrapperNames) (rest : List Char) :
    withoutWrapper (wrapper.toList ++ '[' :: rest) = rest := by
  simp only [wrapperNames, List.mem_cons, List.not_mem_nil, or_false] at known
  rcases known with rfl | rfl | rfl | rfl | rfl <;> rfl

theorem wrapper_cases (text : List Char) : withoutWrapper text = text ∨
    ∃ wrapper ∈ wrapperNames, text = wrapper.toList ++ '[' :: withoutWrapper text := by
  rw [withoutWrapper]
  cases found : wrapperNames.findSome? fun wrapper =>
      afterStart? (wrapper.toList ++ ['[']) text with
  | none => exact .inl rfl
  | some rest =>
    obtain ⟨wrapper, known, after⟩ := List.exists_of_findSome?_eq_some found
    refine .inr ⟨wrapper, known, ?_⟩
    rw [afterStart?] at after
    by_cases start : (wrapper.toList ++ ['[']).isPrefixOf text = true
    · rw [if_pos start] at after
      obtain ⟨behind, rfl⟩ := List.isPrefixOf_iff_prefix.mp start
      rw [List.drop_left] at after
      obtain rfl := Option.some.inj after
      rw [Option.getD_some, List.append_assoc, List.singleton_append]
    · rw [if_neg start] at after
      cases after

theorem wrapper_word {wrapper : String} (known : wrapper ∈ wrapperNames) :
    IsWord wrapper.toList := by
  revert wrapper
  decide

def punctuation : List Char :=
  ['.', '[', ']', ',', '|', '"', '\'']

inductive Quoted (word : List Char) : List Char → Prop where
  | bare : Quoted word word
  | marked {mark : Char} : mark ∈ ['"', '\''] → Quoted word (mark :: (word ++ [mark]))

theorem spelling_quoted {part : String} {leaf : Expr} (spelling : leaf ∈ spellings part) :
    Quoted part.toList leaf.letters := by
  simp only [spellings, List.mem_cons, List.not_mem_nil, or_false] at spelling
  rcases spelling with rfl | rfl | rfl
  · rw [letters_name]
    exact .bare
  · have marked := @Quoted.marked part.toList '"' (by decide)
    simpa using marked
  · have marked := @Quoted.marked part.toList '\'' (by decide)
    simpa using marked

theorem free_between {p : Char → Bool} {mark : Char} {word : List Char} (outer : p mark = false)
    (letters : ∀ c ∈ word, p c = false) : ∀ c ∈ mark :: (word ++ [mark]), p c = false := by
  refine List.forall_mem_cons.mpr ⟨outer, List.forall_mem_append.mpr ⟨letters, ?_⟩⟩
  exact List.forall_mem_singleton.mpr outer

theorem quoted_free {p : Char → Bool} {word text : List Char} (quoted : Quoted word text)
    (quotes : ['"', '\''].all (fun mark => !p mark) = true) (letters : ∀ c ∈ word, p c = false) :
    ∀ c ∈ text, p c = false := by
  cases quoted with
  | bare => exact letters
  | @marked mark quote =>
    have outer : p mark = false := by simpa using List.all_eq_true.mp quotes mark quote
    exact free_between outer letters

section

variable {word text : List Char} (valid : IsWord word) (quoted : Quoted word text)

include valid

theorem word_solid : ∀ c ∈ word, isBlank c = false := by
  intro c member
  rw [← Bool.not_eq_true]
  intro blank
  have letter := valid.letters c member
  rw [of_blank (fun c => isIdentifierPart c = false) (by decide +kernel) blank] at letter
  cases letter

theorem word_free (mark : Char) (listed : mark ∈ punctuation) : ∀ c ∈ word, (c == mark) = false := by
  have foreign : punctuation.all (fun mark => !isIdentifierPart mark) = true := by decide
  intro c member
  rw [beq_eq_false_iff_ne]
  rintro rfl
  simpa [valid.letters c member] using List.all_eq_true.mp foreign c listed

include quoted

theorem quotes_trimmed : trimBoth (· == '\'') (trimBoth (· == '"') text) = word := by
  have double := word_free valid '"' (by decide)
  have single := word_free valid '\'' (by decide)
  cases quoted with
  | bare => rw [trim_both_none double, trim_both_none single]
  | @marked mark quote =>
    simp only [List.mem_cons, List.not_mem_nil, or_false] at quote
    rcases quote with rfl | rfl
    · rw [trim_both_between double, trim_both_none single]
    · have outer : ∀ c ∈ '\'' :: (word ++ ['\'']), (c == '"') = false :=
        free_between (by decide) double
      rw [trim_both_none outer, trim_both_between single]

theorem stripped_quoted {ending : List Char}
    (ends : ending = [] ∨ ending = [']'] ∨ ∃ more, ending = ',' :: more) :
    stripped (text ++ ending) = word := by
  have comma : ∀ c ∈ text, (c == ',') = false :=
    quoted_free quoted (by decide) (word_free valid _ (by decide))
  have bracket : ∀ c ∈ text, (c == ']') = false :=
    quoted_free quoted (by decide) (word_free valid _ (by decide))
  have solid : trim text = text :=
    trim_both_none (quoted_free quoted (by decide) (word_solid valid))
  have first : trimEnd (· == ']') ((text ++ ending).takeWhile (· != ',')) = text := by
    rw [List.takeWhile_append_of_pos fun c member => by simp [bne, comma c member]]
    have last : ∀ c ∈ text.getLast?, (c == ']') = false :=
      fun c member => bracket c (List.mem_of_getLast? member)
    rcases ends with rfl | rfl | ⟨more, rfl⟩
    · exact trim_end_append (by simp) last
    · exact trim_end_append (by simp) last
    · exact trim_end_append (by simp) last
  rw [stripped, first, solid, quotes_trimmed valid quoted]

end

theorem names_bare {part : String} {expr : Expr} (valid : IsWord part.toList)
    (names : Names part expr) : bareName expr.text = part := by
  rw [← String.toList_inj, bare_name_eq]
  cases names with
  | alone spelling =>
    have quoted := spelling_quoted spelling
    have unwrapped : withoutWrapper expr.letters = expr.letters := by
      rcases wrapper_cases expr.letters with same | ⟨wrapper, -, text⟩
      · exact same
      · have bracket : ∀ c ∈ expr.letters, (c == '[') = false :=
          quoted_free quoted (by decide) (word_free valid _ (by decide))
        simpa using bracket '[' (by rw [text]; simp)
    have bare := stripped_quoted valid quoted (.inl rfl)
    rwa [List.append_nil, ← unwrapped] at bare
  | @wrapped wrapper leaf rest known spelling =>
    have quoted := spelling_quoted spelling
    rw [letters_subscript, letters_name, wrapper_removed known, List.map_cons, listed_cons,
      List.append_assoc]
    apply stripped_quoted valid quoted
    cases rest with
    | nil => exact .inr (.inl rfl)
    | cons next rest => exact .inr (.inr ⟨_, rfl⟩)

-- A character that no trimming drops, and that is in no name, stands before the first comma.
def Marked (text : List Char) : Prop :=
  ∃ front mark behind, text = front ++ mark :: behind ∧ ',' ∉ front ∧ mark ∈ ['.', '[', '|']

theorem Marked.goesOn {text : List Char} (marked : Marked text) (more : List Char) :
    Marked (text ++ more) := by
  obtain ⟨front, mark, behind, rfl, free, listed⟩ := marked
  exact ⟨front, mark, behind ++ more, by simp, free, listed⟩

theorem Marked.after {text : List Char} (marked : Marked text) (before : List Char)
    (free : ',' ∉ before) : Marked (before ++ text) := by
  obtain ⟨front, mark, behind, rfl, unmarked, listed⟩ := marked
  exact ⟨before ++ front, mark, behind, by simp, by simp [free, unmarked], listed⟩

theorem marked_by {mark : Char} (listed : mark ∈ ['.', '[', '|']) (behind : List Char) :
    Marked (mark :: behind) :=
  ⟨[], mark, behind, rfl, List.not_mem_nil, listed⟩

theorem marked_dot (behind : List Char) : Marked ('.' :: behind) :=
  marked_by (by decide) behind

theorem marked_bracket (behind : List Char) : Marked ('[' :: behind) :=
  marked_by (by decide) behind

theorem marked_alternative (behind : List Char) : Marked (' ' :: '|' :: behind) :=
  (marked_by (by decide) behind).after [' '] (by decide)

theorem mark_kept {mark : Char} (listed : mark ∈ ['.', '[', '|']) :
    (mark != ',') = true ∧ (mark == ']') = false ∧ isBlank mark = false ∧ (mark == '"') = false ∧
      (mark == '\'') = false ∧ isIdentifierPart mark = false := by
  simp only [List.mem_cons, List.not_mem_nil, or_false] at listed
  rcases listed with rfl | rfl | rfl
  · decide
  · decide
  · decide

theorem marked_not_word {text : List Char} (marked : Marked text) : ¬ IsWord text := by
  obtain ⟨front, mark, behind, rfl, -, listed⟩ := marked
  obtain ⟨-, -, -, -, -, foreign⟩ := mark_kept listed
  intro word
  rw [word.letters mark (List.mem_append_right _ List.mem_cons_self)] at foreign
  cases foreign

theorem marked_stripped {text : List Char} (marked : Marked text) : ¬ IsWord (stripped text) := by
  obtain ⟨front, mark, behind, rfl, free, listed⟩ := marked
  obtain ⟨comma, bracket, blank, double, single, foreign⟩ := mark_kept listed
  have first : mark ∈ (front ++ mark :: behind).takeWhile (· != ',') := by
    have unmarked : ∀ c ∈ front, (c != ',') = true := by
      intro c member
      rw [bne_iff_ne]
      rintro rfl
      exact free member
    rw [List.takeWhile_append_of_pos unmarked, List.takeWhile_cons_of_pos (p := (· != ',')) comma]
    exact List.mem_append_right _ List.mem_cons_self
  have kept : mark ∈ stripped (front ++ mark :: behind) :=
    mem_trim_both_of_kept (mem_trim_both_of_kept (mem_trim_both_of_kept
      (mem_trim_end_of_kept first bracket) blank) double) single
  intro word
  rw [word.letters mark kept] at foreign
  cases foreign

theorem nominal_cases {expr : Expr} (nominal : Nominal expr) :
    (∃ text, expr = .name text ∧ IsWord text.toList) ∨ Marked expr.letters := by
  -- After the text of a value comes the mark of what is added to it.
  have extended {value : Expr} {more : List Char}
      (known : (∃ text, value = .name text ∧ IsWord text.toList) ∨ Marked value.letters)
      (marked : Marked more) : Marked (value.letters ++ more) := by
    rcases known with ⟨text, rfl, word⟩ | before
    · rw [letters_name]
      refine marked.after _ fun comma => ?_
      simpa using word_free word ',' (by decide) ',' comma
    · exact before.goesOn more
  induction nominal with
  | @name text word => exact .inl ⟨text, rfl, word⟩
  | member _ _ ih =>
    rw [letters_member]
    exact .inr (extended ih (marked_dot _))
  | subscript _ _ _ ih =>
    rw [letters_subscript]
    exact .inr (extended ih (marked_bracket _))
  | list =>
    rw [letters_list]
    exact .inr (marked_bracket _)
  | @union left right _ _ ih _ =>
    rw [letters_alternative]
    exact .inr (extended ih (marked_alternative _))

-- An expression begins with arguments of a wrapper, and the text behind its bracket is that of the
-- arguments, the closing bracket, and nothing more or what a mark comes in.
def Wraps (wrapper : String) (expr : Expr) (rest : List Char) : Prop :=
  ∃ argument arguments behind, Begins (.subscript (.name wrapper) (argument :: arguments)) expr ∧
    Nominal argument ∧
    rest = listed ((argument :: arguments).map Expr.letters) ++ ']' :: behind ∧
    (behind = [] ∨ Marked behind)

theorem Wraps.goesOn {wrapper : String} {value expr : Expr} {rest more : List Char}
    (wraps : Wraps wrapper value rest) (begins : ∀ start, Begins start value → Begins start expr)
    (marked : Marked more) : Wraps wrapper expr (rest ++ more) := by
  obtain ⟨argument, arguments, behind, inner, nominal, rfl, ends⟩ := wraps
  refine ⟨argument, arguments, behind ++ more, begins _ inner, nominal, by simp, .inr ?_⟩
  rcases ends with rfl | before
  · exact marked
  · exact before.goesOn more

theorem bracket_splits {word text more rest : List Char} {mark : Char} (valid : IsWord word)
    (foreign : isIdentifierPart mark = false) (same : text ++ mark :: more = word ++ '[' :: rest) :
    text = word ∧ mark = '[' ∧ more = rest ∨
      ∃ inner, text = word ++ '[' :: inner ∧ rest = inner ++ mark :: more := by
  rcases List.append_eq_append_iff.mp same with ⟨between, front, back⟩ | ⟨between, front, back⟩
  · cases between with
    | nil =>
      obtain ⟨mark, behind⟩ := List.cons.inj back
      exact .inl ⟨by rw [front, List.append_nil], mark, behind⟩
    | cons c between =>
      obtain ⟨rfl, -⟩ := List.cons.inj back
      have inside : mark ∈ word := by
        rw [front]
        exact List.mem_append_right _ List.mem_cons_self
      rw [valid.letters mark inside] at foreign
      cases foreign
  · cases between with
    | nil =>
      obtain ⟨bracket, behind⟩ := List.cons.inj back
      exact .inl ⟨by rw [front, List.append_nil], bracket.symm, behind.symm⟩
    | cons c between =>
      obtain ⟨rfl, behind⟩ := List.cons.inj back
      exact .inr ⟨between, front, behind⟩

theorem nominal_wraps {wrapper : String} (valid : IsWord wrapper.toList) {expr : Expr}
    (nominal : Nominal expr) {rest : List Char}
    (text : expr.letters = wrapper.toList ++ '[' :: rest) : Wraps wrapper expr rest := by
  induction nominal generalizing rest with
  | @name name word =>
    rw [letters_name] at text
    simpa using word_free word '[' (by decide) '[' (by rw [text]; simp)
  | @member value label _ _ ih =>
    rw [letters_member] at text
    rcases bracket_splits valid (by decide) text with ⟨-, other, -⟩ | ⟨inner, before, rfl⟩
    · cases other
    · exact (ih before).goesOn (fun _ => .member) (marked_dot _)
  | @subscript value arguments plain present each ih _ =>
    rw [letters_subscript] at text
    rcases bracket_splits valid (by decide) text with ⟨whole, -, behind⟩ | ⟨inner, before, rfl⟩
    · obtain ⟨argument, arguments, rfl⟩ := List.exists_cons_of_ne_nil present
      rcases nominal_cases plain with ⟨name, rfl, -⟩ | marked
      · rw [letters_name, String.toList_inj] at whole
        subst whole
        exact ⟨argument, arguments, [], .here, each argument List.mem_cons_self, behind.symm, .inl rfl⟩
      · rw [whole] at marked
        exact absurd valid (marked_not_word marked)
    · exact (ih before).goesOn (fun _ => .subscript) (marked_bracket _)
  | @list items _ _ =>
    rw [letters_list] at text
    obtain ⟨c, more, same, start⟩ := valid.begins
    rw [same, List.cons_append] at text
    obtain ⟨rfl, -⟩ := List.cons.inj text
    exact absurd start (by decide)
  | @union left right _ _ ih _ =>
    rw [letters_alternative] at text
    rcases bracket_splits valid (by decide) text with ⟨-, other, -⟩ | ⟨inner, before, rfl⟩
    · cases other
    · exact (ih before).goesOn (fun _ => .union) (marked_alternative _)

theorem wrapped_part {argument : Expr} {arguments : List Expr} {behind : List Char} {part : String}
    (nominal : Nominal argument) (ends : behind = [] ∨ Marked behind) (valid : IsWord part.toList)
    (bare : stripped (listed ((argument :: arguments).map Expr.letters) ++ ']' :: behind) =
      part.toList) : argument = .name part := by
  have unmarked : ¬ Marked (listed ((argument :: arguments).map Expr.letters) ++ ']' :: behind) :=
    fun marked => marked_stripped marked (by rwa [bare])
  rw [List.map_cons, listed_cons, List.append_assoc] at bare unmarked
  rcases nominal_cases nominal with ⟨name, rfl, word⟩ | marked
  · rw [letters_name] at bare unmarked
    have comma : ',' ∉ name.toList := fun comma => by
      simpa using word_free word ',' (by decide) ',' comma
    have cut : stripped (name.toList ++
        ((arguments.map Expr.letters).flatMap (fun item => ',' :: ' ' :: item) ++ ']' :: behind)) =
        name.toList := by
      apply stripped_quoted word .bare
      cases arguments with
      | cons next arguments => exact .inr (.inr ⟨_, rfl⟩)
      | nil =>
        rcases ends with rfl | marked
        · exact .inr (.inl rfl)
        · exact absurd ((marked.after [']'] (by decide)).after _ comma) unmarked
    rw [cut, String.toList_inj] at bare
    rw [bare]
  · exact absurd (marked.goesOn _) unmarked

theorem bare_name_structure {expr : Expr} (nominal : Nominal expr) {part : String}
    (valid : IsWord part.toList) (bare : bareName expr.text = part) :
    expr = .name part ∨ ∃ wrapper ∈ wrapperNames, ∃ rest,
      Begins (.subscript (.name wrapper) (.name part :: rest)) expr := by
  rw [← String.toList_inj, bare_name_eq] at bare
  rcases wrapper_cases expr.letters with same | ⟨wrapper, known, text⟩
  · rw [same] at bare
    rcases nominal_cases nominal with ⟨name, rfl, word⟩ | marked
    · have whole := stripped_quoted word .bare (.inl rfl)
      rw [letters_name, ← List.append_nil name.toList, whole, String.toList_inj] at bare
      exact .inl (by rw [bare])
    · exact absurd (by rwa [bare]) (marked_stripped marked)
  · obtain ⟨argument, arguments, behind, begins, inner, rest, ends⟩ :=
      nominal_wraps (wrapper_word known) nominal text
    rw [rest] at bare
    obtain rfl := wrapped_part inner ends valid bare
    exact .inr ⟨wrapper, known, arguments, begins⟩

theorem composition_of_append (known : List String) (owner : ClassRecord)
    (before after : List Attribute) :
    compositionOf known { owner with attributes := before ++ after } =
      compositionOf known { owner with attributes := before } ++
        compositionOf known { owner with attributes := after } :=
  List.filterMap_append

theorem composition_of_cons {known : List String} {owner : ClassRecord} {member : Attribute}
    {part : String} (bare : bareName member.declaredType = part)
    (linked : part ∈ known ∧ part ≠ owner.name) (after : List Attribute) :
    compositionOf known { owner with attributes := member :: after } =
      ⟨.composition, owner.name, part⟩ :: compositionOf known { owner with attributes := after } := by
  subst bare
  exact List.filterMap_cons_some (if_pos linked)

theorem attribute_adds_one {earlier later : List ClassRecord} {owner : ClassRecord}
    {before after : List Attribute} {member : Attribute} {part : String}
    (bare : bareName member.declaredType = part) (other : owner.name ≠ part)
    (present : part ∈ (earlier ++ owner :: later).map ClassRecord.name) :
    ∃ front back,
      composition (earlier ++ { owner with attributes := before ++ member :: after } :: later) =
        front ++ ⟨.composition, owner.name, part⟩ :: back ∧
      composition (earlier ++ { owner with attributes := before ++ after } :: later) =
        front ++ back := by
  obtain ⟨known, names⟩ : ∃ known, (earlier ++ owner :: later).map ClassRecord.name = known :=
    ⟨_, rfl⟩
  have split (attributes : List Attribute) :
      composition (earlier ++ { owner with attributes := attributes } :: later) =
        earlier.flatMap (compositionOf known) ++
          (compositionOf known { owner with attributes := attributes } ++
            later.flatMap (compositionOf known)) := by
    simp [composition, ← names]
  rw [names] at present
  rw [split, split, composition_of_append, composition_of_append,
    composition_of_cons bare ⟨present, other.symm⟩]
  exact ⟨earlier.flatMap (compositionOf known) ++
      compositionOf known { owner with attributes := before },
    compositionOf known { owner with attributes := after } ++ later.flatMap (compositionOf known),
    by simp, by simp⟩

-- Every type that names a part has the name of the part as its bare name, so that an attribute of
-- it gives a class that is another one just one relation to the part. And what has that bare name
-- and is put together from names alone is the name itself, or begins with a wrapper whose first
-- argument is the name itself.
theorem bare_names_follow_structure {part : String} (valid : IsWord part.toList) :
    (∀ expr, Names part expr →
      bareName expr.text = part ∧
      ∀ (earlier later : List ClassRecord) (owner : ClassRecord) (before after : List Attribute)
        (label : String), owner.name ≠ part →
        part ∈ (earlier ++ owner :: later).map ClassRecord.name →
        ∃ front back,
          composition (earlier ++
            { owner with attributes := before ++ ⟨label, expr.text⟩ :: after } :: later) =
              front ++ ⟨.composition, owner.name, part⟩ :: back ∧
          composition (earlier ++ { owner with attributes := before ++ after } :: later) =
            front ++ back) ∧
    ∀ expr, Nominal expr → bareName expr.text = part →
      expr = .name part ∨ ∃ wrapper ∈ wrapperNames, ∃ rest,
        Begins (.subscript (.name wrapper) (.name part :: rest)) expr := by
  constructor
  · intro expr names
    have bare := names_bare valid names
    exact ⟨bare, fun earlier later owner before after label other known =>
      attribute_adds_one bare other known⟩
  · intro expr nominal bare
    exact bare_name_structure nominal valid bare

theorem bare_name_of_optional_node :
    IsWord "Node".toList ∧
      bareName (Expr.subscript (.name "Optional") [.literal "\"Node\"", .other "Call"]).text =
        "Node" := by
  have valid : IsWord "Node".toList := by decide
  obtain ⟨complete, -⟩ := bare_names_follow_structure valid
  exact ⟨valid, (complete _ (.wrapped (by decide) (by simp [spellings]))).1⟩

end SourceDiagram.ObjectModel
