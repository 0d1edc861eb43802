import SourceDiagram.Proofs.Schema.Grammar

set_option autoImplicit false

namespace SourceDiagram.Schema

open SourceDiagram.Text

def Solid (text : List Char) : Prop :=
  ∀ c ∈ text.head?, isBlank c = false

def Wordless (text : List Char) : Prop :=
  ∀ c ∈ text.head?, isWordChar c = false

theorem solid_cons {c : Char} (text : List Char) (solid : isBlank c = false) : Solid (c :: text) := by
  rintro d ⟨⟩
  exact solid

theorem wordless_cons {c : Char} (text : List Char) (wordless : isWordChar c = false) :
    Wordless (c :: text) := by
  rintro d ⟨⟩
  exact wordless

theorem wordless_blank {between : List Char} (blank : Blank between) {c : Char} (text : List Char)
    (wordless : isWordChar c = false) : Wordless (between ++ c :: text) := by
  cases between with
  | nil => exact wordless_cons text wordless
  | cons d rest => exact wordless_cons _ (blank_not_word (blank d List.mem_cons_self))

theorem after_keyword_iff {keyword cs rest : List Char}
    (plain : ∀ letter ∈ keyword, letter.toNat < 128 ∧ letter ≠ 'k') :
    afterKeyword? keyword cs = some rest ↔
      ∃ word, word.map foldCase = keyword ∧ cs = word ++ rest := by
  induction keyword generalizing cs with
  | nil => simp [afterKeyword?]
  | cons letter letters ih =>
    obtain ⟨ascii, notK⟩ := plain letter List.mem_cons_self
    have ih := fun tail => @ih tail fun other member => plain other (List.mem_cons_of_mem _ member)
    cases cs with
    | nil =>
      simp only [afterKeyword?, reduceCtorEq, false_iff]
      rintro ⟨word, spelled, split⟩
      rw [List.nil_eq, List.append_eq_nil_iff] at split
      rw [split.1] at spelled
      cases spelled
    | cons c cs =>
      simp only [afterKeyword?, stands_for_iff letter c ascii notK]
      constructor
      · intro found
        split at found
        · rename_i same
          obtain ⟨word, spelled, rfl⟩ := (ih cs).mp found
          exact ⟨c :: word, by rw [List.map_cons, same, spelled], rfl⟩
        · cases found
      · rintro ⟨word, spelled, split⟩
        cases word with
        | nil => cases spelled
        | cons d word =>
          obtain ⟨rfl, rfl⟩ := List.cons.inj split
          obtain ⟨same, spelled⟩ := List.cons.inj spelled
          rw [if_pos same]
          exact (ih _).mpr ⟨word, spelled, rfl⟩

theorem blanks_split (cs : List Char) :
    ∃ gap, Blank gap ∧ cs = gap ++ afterBlanks cs ∧ Solid (afterBlanks cs) :=
  drop_while_split isBlank cs

theorem after_blanks_append {gap text : List Char} (blank : Blank gap) (solid : Solid text) :
    afterBlanks (gap ++ text) = text := by
  rw [afterBlanks, List.dropWhile_append_of_pos blank]
  cases text with
  | nil => rfl
  | cons c text => rw [List.dropWhile_cons_of_neg (by simp [solid c rfl])]

theorem after_gap_iff {cs rest : List Char} :
    afterGap? cs = some rest ↔ ∃ gap, Gap gap ∧ cs = gap ++ rest ∧ Solid rest := by
  constructor
  · intro found
    cases cs with
    | nil => cases found
    | cons c cs =>
      rw [afterGap?] at found
      split at found
      · rename_i blank
        cases found
        obtain ⟨gap, blanks, split, solid⟩ := blanks_split cs
        refine ⟨c :: gap, ⟨by simp, ?_⟩, congrArg (List.cons c) split, solid⟩
        exact List.forall_mem_cons.mpr ⟨blank, blanks⟩
      · cases found
  · rintro ⟨gap, ⟨present, blanks⟩, rfl, solid⟩
    cases gap with
    | nil => contradiction
    | cons c gap =>
      obtain ⟨blank, blanks⟩ := List.forall_mem_cons.mp blanks
      rw [List.cons_append, afterGap?, if_pos blank, after_blanks_append blanks solid]

theorem after_mark_iff {mark : Char} {cs rest : List Char} :
    afterMark? mark cs = some rest ↔ cs = mark :: rest := by
  cases cs with
  | nil => simp [afterMark?]
  | cons c cs =>
    rw [afterMark?]
    constructor
    · intro found
      split at found
      · rename_i same
        cases found
        rw [same]
      · cases found
    · rintro ⟨rfl, rfl⟩
      exact if_pos rfl

-- The keywords hold no letter that a character beyond ASCII stands for unnoticed.
def PlainWord (keyword : String) : Prop :=
  keyword.toList ≠ [] ∧ ∀ letter ∈ keyword.toList,
    letter.toNat < 128 ∧ letter ≠ 'k' ∧ isBlank letter = false

instance (keyword : String) : Decidable (PlainWord keyword) :=
  @instDecidableAnd _ _ _ (List.decidableBAll _ _)

theorem after_word_iff {keyword : String} (plain : PlainWord keyword) {cs rest : List Char} :
    afterWord? keyword cs = some rest ↔
      ∃ word gap, Spells keyword word ∧ Gap gap ∧ cs = word ++ (gap ++ rest) ∧ Solid rest := by
  have letters : ∀ letter ∈ keyword.toList, letter.toNat < 128 ∧ letter ≠ 'k' :=
    fun letter member => ⟨(plain.2 letter member).1, (plain.2 letter member).2.1⟩
  constructor
  · intro found
    obtain ⟨between, first, second⟩ := Option.bind_eq_some_iff.mp found
    obtain ⟨word, spelled, rfl⟩ := (after_keyword_iff letters).mp first
    obtain ⟨gap, blank, rfl, solid⟩ := after_gap_iff.mp second
    exact ⟨word, gap, spelled, blank, rfl, solid⟩
  · rintro ⟨word, gap, spelled, blank, rfl, solid⟩
    exact Option.bind_eq_some_iff.mpr ⟨gap ++ rest,
      (after_keyword_iff letters).mpr ⟨word, spelled, rfl⟩,
      after_gap_iff.mpr ⟨gap, blank, rfl, solid⟩⟩

theorem solid_of_spells {keyword : String} (plain : PlainWord keyword) {word : List Char}
    (spelled : Spells keyword word) (text : List Char) : Solid (word ++ text) := by
  cases word with
  | nil => exact absurd spelled.symm plain.1
  | cons c word =>
    apply solid_cons
    have letter : foldCase c ∈ keyword.toList := by
      rw [← spelled]
      exact List.mem_cons_self
    have notBlank := (plain.2 _ letter).2.2
    cases blank : isBlank c with
    | false => rfl
    | true => rw [blank_folds blank, blank] at notBlank; cases notBlank

theorem spells_nonempty {keyword : String} (plain : PlainWord keyword) {word : List Char}
    (spelled : Spells keyword word) : word ≠ [] := by
  rintro rfl
  exact plain.1 spelled.symm

theorem quote_not_word : isWordChar '"' = false := by decide

theorem named_solid {name text : List Char} (named : Named name text) (rest : List Char) :
    Solid (text ++ rest) := by
  cases named with
  | word present letters =>
    cases name with
    | nil => contradiction
    | cons c name =>
      apply solid_cons
      have word := letters c List.mem_cons_self
      cases blank : isBlank c with
      | false => rfl
      | true => rw [blank_not_word blank] at word; cases word
  | quoted present closed => exact solid_cons _ (by decide)

theorem read_name_sound {cs name rest : List Char} (found : readName? cs = some (name, rest)) :
    ∃ text, Named name text ∧ cs = text ++ rest := by
  rw [readName?] at found
  split at found
  · rename_i quoted opened
    obtain ⟨after, closed, found⟩ := Option.bind_eq_some_iff.mp found
    split at found
    · cases found
    · rename_i present
      cases found
      rw [List.isEmpty_iff] at present
      have inside : '"' ∉ quoted.takeWhile (· != '"') := by
        intro member
        simpa using List.all_eq_true.mp List.all_takeWhile _ member
      refine ⟨_, Named.quoted present inside, ?_⟩
      rw [after_mark_iff.mp opened, List.cons_append, List.append_assoc, List.singleton_append,
        ← after_mark_iff.mp closed, List.takeWhile_append_dropWhile]
  · dsimp only at found
    split at found
    · cases found
    · rename_i present
      cases found
      rw [List.isEmpty_iff] at present
      exact ⟨_, Named.word present (List.all_eq_true.mp List.all_takeWhile),
        List.takeWhile_append_dropWhile.symm⟩

theorem read_name_complete {name text rest : List Char} (named : Named name text)
    (wordless : Wordless rest) : readName? (text ++ rest) = some (name, rest) := by
  cases named with
  | word present letters =>
    have bare : afterMark? '"' (name ++ rest) = none := by
      rw [Option.eq_none_iff_forall_ne_some]
      intro after opened
      cases name with
      | nil => contradiction
      | cons c name =>
        obtain ⟨rfl, -⟩ := List.cons.inj (after_mark_iff.mp opened)
        have word := letters '"' List.mem_cons_self
        rw [quote_not_word] at word
        cases word
    have kept : (name ++ rest).takeWhile isWordChar = name := by
      rw [List.takeWhile_append_of_pos letters]
      cases rest with
      | nil => simp
      | cons c rest => rw [List.takeWhile_cons_of_neg (by simp [wordless c rfl]), List.append_nil]
    have left : (name ++ rest).dropWhile isWordChar = rest := by
      rw [List.dropWhile_append_of_pos letters]
      cases rest with
      | nil => simp
      | cons c rest => rw [List.dropWhile_cons_of_neg (by simp [wordless c rfl])]
    simp only [readName?, bare, kept, left, List.isEmpty_iff, if_neg present]
  | quoted present closed =>
    have opened : afterMark? '"' (('"' :: (name ++ ['"'])) ++ rest) = some (name ++ '"' :: rest) :=
      after_mark_iff.mpr (by simp)
    have plain : ∀ c ∈ name, (c != '"') = true := by
      intro c member
      simp only [bne_iff_ne]
      rintro rfl
      exact closed member
    have kept : (name ++ '"' :: rest).takeWhile (· != '"') = name := by
      rw [List.takeWhile_append_of_pos plain, List.takeWhile_cons_of_neg (by simp),
        List.append_nil]
    have left : afterMark? '"' ((name ++ '"' :: rest).dropWhile (· != '"')) = some rest := by
      rw [List.dropWhile_append_of_pos plain, List.dropWhile_cons_of_neg (by simp)]
      exact after_mark_iff.mpr rfl
    simp only [readName?, opened, kept, left, Option.bind_eq_bind, Option.bind_some,
      List.isEmpty_iff, if_neg present]

theorem qualified_solid {schema : Option (List Char)} {table text : List Char}
    (qualified : Qualified schema table text) (rest : List Char) : Solid (text ++ rest) := by
  cases qualified with
  | plain named => exact named_solid named rest
  | dotted named => rw [List.append_assoc]; exact named_solid named _

theorem read_qualified_sound {cs table rest : List Char} {schema : Option (List Char)}
    (found : readQualified? cs = some (schema, table, rest)) :
    ∃ text between, Qualified schema table text ∧ Blank between ∧
      cs = text ++ (between ++ rest) := by
  obtain ⟨⟨first, after⟩, named, found⟩ := Option.bind_eq_some_iff.mp found
  obtain ⟨text, firstNamed, front⟩ := read_name_sound named
  obtain ⟨gap, blank, split, -⟩ := blanks_split after
  dsimp only at found
  split at found
  · cases found
    exact ⟨text, gap, .plain firstNamed, blank, by rw [front, ← split]⟩
  · rename_i dotted dot
    obtain ⟨⟨second, last⟩, named, found⟩ := Option.bind_eq_some_iff.mp found
    cases found
    obtain ⟨secondText, secondNamed, back⟩ := read_name_sound named
    obtain ⟨middle, middleBlank, middleSplit, -⟩ := blanks_split dotted
    obtain ⟨final, finalBlank, finalSplit, -⟩ := blanks_split last
    refine ⟨_, final, .dotted firstNamed blank middleBlank secondNamed, finalBlank, ?_⟩
    dsimp only
    rw [front, split, after_mark_iff.mp dot, middleSplit, back, List.append_assoc,
      List.append_assoc, List.cons_append, List.append_assoc, ← finalSplit]

theorem read_qualified_complete {schema : Option (List Char)} {table text between : List Char}
    (qualified : Qualified schema table text) (blank : Blank between) (rest : List Char) :
    readQualified? (text ++ (between ++ '(' :: rest)) = some (schema, table, '(' :: rest) := by
  have opening : Solid ('(' :: rest) := solid_cons rest (by decide)
  have opens : Wordless (between ++ '(' :: rest) := wordless_blank blank rest (by decide)
  cases qualified with
  | plain named =>
    have closed : afterMark? '.' ('(' :: rest) = none := by simp [afterMark?]
    simp only [readQualified?, read_name_complete named opens, Option.bind_eq_bind,
      Option.bind_some, after_blanks_append blank opening, closed]
    rfl
  | @dotted schema table first second before after firstNamed beforeBlank afterBlank secondNamed =>
    have dots : Wordless (before ++ '.' :: (after ++ (second ++ (between ++ '(' :: rest)))) :=
      wordless_blank beforeBlank _ (by decide)
    have dot : Solid ('.' :: (after ++ (second ++ (between ++ '(' :: rest)))) :=
      solid_cons _ (by decide)
    have marked : afterMark? '.' ('.' :: (after ++ (second ++ (between ++ '(' :: rest)))) =
        some (after ++ (second ++ (between ++ '(' :: rest))) := after_mark_iff.mpr rfl
    simp only [List.append_assoc, List.cons_append, readQualified?,
      read_name_complete firstNamed dots, Option.bind_eq_bind, Option.bind_some,
      after_blanks_append beforeBlank dot, marked,
      after_blanks_append afterBlank (named_solid secondNamed _),
      read_name_complete secondNamed opens, after_blanks_append blank opening]
    rfl

end SourceDiagram.Schema
