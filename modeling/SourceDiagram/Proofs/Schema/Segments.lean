import SourceDiagram.Proofs.Schema.Reading

set_option autoImplicit false

namespace SourceDiagram.Schema

open SourceDiagram.Text

theorem spells_mem {keyword : String} {word : List Char} (spelled : Spells keyword word) {c : Char}
    (member : c ∈ word) : foldCase c ∈ keyword.toList := by
  rw [← spelled]
  exact List.mem_map_of_mem member

theorem after_condition_sound {cs : List Char} (solid : Solid cs) :
    ∃ condition, Condition condition ∧ cs = condition ++ afterCondition cs ∧
      Solid (afterCondition cs) := by
  rw [afterCondition]
  generalize found : Bind.bind (m := Option) _ _ = result
  cases result with
  | none => exact ⟨[], .absent, rfl, solid⟩
  | some rest =>
    obtain ⟨second, condition, found⟩ := Option.bind_eq_some_iff.mp found
    obtain ⟨third, negation, found⟩ := Option.bind_eq_some_iff.mp found
    obtain ⟨_, _, firstWord, firstBlank, firstSplit, -⟩ :=
      (after_word_iff (by decide)).mp condition
    obtain ⟨_, _, secondWord, secondBlank, secondSplit, -⟩ :=
      (after_word_iff (by decide)).mp negation
    obtain ⟨_, _, thirdWord, thirdBlank, thirdSplit, solid⟩ :=
      (after_word_iff (by decide)).mp found
    refine ⟨_, .present firstWord firstBlank secondWord secondBlank thirdWord thirdBlank, ?_, solid⟩
    rw [firstSplit, secondSplit, thirdSplit]
    simp

theorem qualified_first {schema : Option (List Char)} {table text between : List Char}
    (qualified : Qualified schema table text) (blank : Blank between) (rest : List Char) :
    ∃ name first gap mark later, Named name first ∧ Blank gap ∧ (mark = '.' ∨ mark = '(') ∧
      text ++ (between ++ '(' :: rest) = first ++ (gap ++ mark :: later) := by
  cases qualified with
  | plain named => exact ⟨_, _, between, '(', rest, named, blank, Or.inr rfl, rfl⟩
  | dotted named beforeBlank =>
    exact ⟨_, _, _, '.', _, named, beforeBlank, Or.inl rfl, by
      simp only [List.append_assoc, List.cons_append]; rfl⟩

theorem name_before_no_word {name first gap rest between : List Char} {mark : Char}
    {later word : List Char} (named : Named name first) (blank : Blank gap)
    (marked : mark = '.' ∨ mark = '(') (spelled : Spells "if" word) (space : Gap between)
    (solid : Solid rest) (same : first ++ (gap ++ mark :: later) = word ++ (between ++ rest)) :
    rest = mark :: later := by
  have fixed : isBlank mark = false ∧ foldCase mark = mark ∧ mark ∉ "if".toList := by
    rcases marked with rfl | rfl <;> decide
  have markSolid : Solid (mark :: later) := solid_cons later fixed.1
  have outside : ∀ c ∈ (gap ++ mark :: later).head?, c ∉ word := by
    intro c first member
    have letter := spells_mem spelled member
    cases gap with
    | nil =>
      obtain rfl : mark = c := by simpa using first
      rw [fixed.2.1] at letter
      exact fixed.2.2 letter
    | cons d gap =>
      obtain rfl : d = c := by simpa using first
      have space := blank d List.mem_cons_self
      rw [blank_folds space] at letter
      have plain : PlainWord "if" := by decide
      rw [(plain.2 d letter).2.2] at space
      cases space
  -- The first part and the word end together, as neither reaches beyond the other.
  have together : first = word := by
    rcases List.append_eq_append_iff.mp same with ⟨more, front, back⟩ | ⟨more, front, back⟩
    · cases more with
      | nil => rw [front, List.append_nil]
      | cons c more =>
        refine absurd ?_ (outside c (by rw [back]; rfl))
        rw [front]
        exact List.mem_append_right _ List.mem_cons_self
    · cases more with
      | nil => rw [front, List.append_nil]
      | cons c more =>
        cases between with
        | nil => exact absurd rfl space.1
        | cons d between =>
          obtain ⟨rfl, -⟩ := List.cons.inj back
          cases named with
          | word present letters =>
            have inside := letters d (by rw [front]; exact List.mem_append_right _ List.mem_cons_self)
            rw [blank_not_word (space.2 d List.mem_cons_self)] at inside
            cases inside
          | quoted present closed =>
            cases word with
            | nil => exact absurd rfl (spells_nonempty (by decide) spelled)
            | cons e word =>
              obtain ⟨rfl, -⟩ := List.cons.inj front
              exact absurd (spells_mem spelled List.mem_cons_self) (by decide)
  rw [together] at same
  have tails := List.append_cancel_left same
  rw [← after_blanks_append space.2 solid, ← tails, after_blanks_append blank markSolid]

theorem after_condition_complete {condition table name between rest : List Char}
    {schema : Option (List Char)} (condition_ok : Condition condition)
    (qualified : Qualified schema table name) (blank : Blank between) :
    afterCondition (condition ++ (name ++ (between ++ '(' :: rest))) =
      name ++ (between ++ '(' :: rest) := by
  have solid := qualified_solid qualified (between ++ '(' :: rest)
  cases condition_ok with
  | absent =>
    rw [List.nil_append, afterCondition]
    generalize found : Bind.bind (m := Option) _ _ = result
    cases result with
    | none => rfl
    | some last =>
      obtain ⟨second, condition, found⟩ := Option.bind_eq_some_iff.mp found
      obtain ⟨third, negation, -⟩ := Option.bind_eq_some_iff.mp found
      obtain ⟨word, space, spelled, gap, same, secondSolid⟩ :=
        (after_word_iff (by decide)).mp condition
      obtain ⟨negated, _, negatedSpelled, -, split, -⟩ := (after_word_iff (by decide)).mp negation
      obtain ⟨first, text, before, mark, later, named, beforeBlank, marked, start⟩ :=
        qualified_first qualified blank rest
      rw [start] at same
      have next := name_before_no_word named beforeBlank marked spelled gap secondSolid same
      cases negated with
      | nil => exact absurd rfl (spells_nonempty (by decide) negatedSpelled)
      | cons c negated =>
        rw [next] at split
        obtain ⟨rfl, -⟩ := List.cons.inj split
        have letter := spells_mem negatedSpelled List.mem_cons_self
        rcases marked with rfl | rfl
        · exact absurd letter (by decide)
        · exact absurd letter (by decide)
  | @present first second third firstGap secondGap thirdGap firstWord firstBlank secondWord
      secondBlank thirdWord thirdBlank =>
    have thirdRead := (after_word_iff (show PlainWord "exists" by decide)).mpr
      ⟨third, thirdGap, thirdWord, thirdBlank, rfl, solid⟩
    have secondRead := (after_word_iff (show PlainWord "not" by decide)).mpr
      ⟨second, secondGap, secondWord, secondBlank, rfl,
        solid_of_spells (by decide) thirdWord (thirdGap ++ (name ++ (between ++ '(' :: rest)))⟩
    have firstRead := (after_word_iff (show PlainWord "if" by decide)).mpr
      ⟨first, firstGap, firstWord, firstBlank, rfl, solid_of_spells (by decide) secondWord
        (secondGap ++ (third ++ (thirdGap ++ (name ++ (between ++ '(' :: rest)))))⟩
    simp only [List.append_assoc, afterCondition, firstRead, secondRead, thirdRead,
      Option.bind_eq_bind, Option.bind_some, Option.getD_some]

theorem read_head_iff {cs table rest : List Char} {schema : Option (List Char)} :
    readHead? cs = some (schema, table, rest) ↔
      ∃ head, Head schema table head ∧ cs = head ++ rest := by
  constructor
  · intro found
    obtain ⟨first, create, found⟩ := Option.bind_eq_some_iff.mp found
    obtain ⟨second, noun, found⟩ := Option.bind_eq_some_iff.mp found
    obtain ⟨⟨schema, table, third⟩, qualified, found⟩ := Option.bind_eq_some_iff.mp found
    obtain ⟨fourth, opened, found⟩ := Option.bind_eq_some_iff.mp found
    cases found
    obtain ⟨createWord, createGap, createSpelled, createBlank, createSplit, -⟩ :=
      (after_word_iff (by decide)).mp create
    obtain ⟨nounWord, nounGap, nounSpelled, nounBlank, nounSplit, solid⟩ :=
      (after_word_iff (by decide)).mp noun
    obtain ⟨condition, conditional, conditionSplit, -⟩ := after_condition_sound solid
    obtain ⟨name, between, named, blank, nameSplit⟩ := read_qualified_sound qualified
    refine ⟨_, .intro createSpelled createBlank nounSpelled nounBlank conditional named blank, ?_⟩
    rw [createSplit, nounSplit, conditionSplit, nameSplit, after_mark_iff.mp opened]
    simp
  · rintro ⟨head, ⟨create, createBlank, noun, nounBlank, condition, qualified, blank⟩, rfl⟩
    rename_i createWord nounWord createGap nounGap conditionText name between
    have conditionSolid : Solid (conditionText ++ (name ++ (between ++ '(' :: rest))) := by
      cases condition with
      | absent => exact qualified_solid qualified _
      | present spelled => rw [List.append_assoc]; exact solid_of_spells (by decide) spelled _
    have nounRead := (after_word_iff (show PlainWord "table" by decide)).mpr
      ⟨nounWord, nounGap, noun, nounBlank, rfl, conditionSolid⟩
    have createRead := (after_word_iff (show PlainWord "create" by decide)).mpr
      ⟨createWord, createGap, create, createBlank, rfl, solid_of_spells (by decide) noun
        (nounGap ++ (conditionText ++ (name ++ (between ++ '(' :: rest))))⟩
    have opened : afterMark? '(' ('(' :: rest) = some rest := after_mark_iff.mpr rfl
    simp only [List.append_assoc, List.cons_append, List.nil_append, readHead?, createRead,
      nounRead, after_condition_complete condition qualified blank,
      read_qualified_complete qualified blank, opened, Option.bind_eq_bind, Option.bind_some]
    rfl

theorem read_head_complete {table head : List Char} {schema : Option (List Char)}
    (written : Head schema table head) (rest : List Char) :
    readHead? (head ++ rest) = some (schema, table, rest) :=
  read_head_iff.mpr ⟨head, written, rfl⟩

theorem head_unique {schema schema' : Option (List Char)}
    {table table' head head' rest rest' : List Char} (first : Head schema table head)
    (second : Head schema' table' head') (same : head ++ rest = head' ++ rest') :
    schema = schema' ∧ table = table' ∧ head = head' := by
  have read := read_head_complete first rest
  rw [same, read_head_complete second rest'] at read
  cases read
  exact ⟨rfl, rfl, List.append_cancel_right same⟩

theorem after_body_iff {cs rest : List Char} :
    afterBody? cs = some rest ↔ ∃ gap, Blank gap ∧ cs = ')' :: (gap ++ ';' :: rest) := by
  constructor
  · intro found
    obtain ⟨between, closed, ended⟩ := Option.bind_eq_some_iff.mp found
    obtain ⟨gap, blank, split, -⟩ := blanks_split between
    refine ⟨gap, blank, ?_⟩
    rw [after_mark_iff.mp closed, ← after_mark_iff.mp ended, ← split]
  · rintro ⟨gap, blank, rfl⟩
    have semicolon : Solid (';' :: rest) := solid_cons rest (by decide)
    have closed : afterMark? ')' (')' :: (gap ++ ';' :: rest)) = some (gap ++ ';' :: rest) :=
      after_mark_iff.mpr rfl
    have ended : afterMark? ';' (afterBlanks (gap ++ ';' :: rest)) = some rest := by
      rw [after_blanks_append blank semicolon]
      exact after_mark_iff.mpr rfl
    simp only [afterBody?, closed, ended, Option.bind_eq_bind, Option.bind_some]

theorem closes_cons {c : Char} {body : List Char} (closes : Closes body) : Closes (c :: body) := by
  obtain ⟨before, gap, after, blank, rfl⟩ := closes
  exact ⟨c :: before, gap, after, blank, rfl⟩

theorem closes_before {body gap after rest : List Char} (blank : Blank gap)
    (same : body ++ ')' :: rest = gap ++ ';' :: after) : ∃ inner, body = gap ++ ';' :: inner := by
  rcases List.append_eq_append_iff.mp same with ⟨more, front, back⟩ | ⟨more, front, back⟩
  · cases more with
    | nil => cases back
    | cons c more =>
      obtain ⟨rfl, -⟩ := List.cons.inj back
      have inside := blank ')' (by rw [front]; exact List.mem_append_right _ List.mem_cons_self)
      exact absurd inside (by decide)
  · cases more with
    | nil => cases back
    | cons c more =>
      obtain ⟨rfl, -⟩ := List.cons.inj back
      exact ⟨more, front⟩

theorem read_body_iff {cs body rest : List Char} :
    readBody? cs = some (body, rest) ↔
      ¬ Closes body ∧ ∃ gap, Blank gap ∧ cs = body ++ ')' :: (gap ++ ';' :: rest) := by
  induction cs generalizing body with
  | nil => simp [readBody?]
  | cons c cs ih =>
    rw [readBody?]
    constructor
    · intro found
      split at found
      · rename_i ended
        cases found
        refine ⟨?_, after_body_iff.mp ended⟩
        rintro ⟨before, gap, after, -, split⟩
        cases before <;> cases split
      · rename_i unended
        obtain ⟨⟨inner, after⟩, later, same⟩ := Option.map_eq_some_iff.mp found
        cases same
        obtain ⟨short, gap, blank, rfl⟩ := ih.mp later
        refine ⟨?_, gap, blank, rfl⟩
        rintro ⟨before, between, after, betweenBlank, split⟩
        cases before with
        | nil =>
          obtain ⟨rfl, rfl⟩ := List.cons.inj split
          have ended : afterBody? (')' :: (between ++ ';' :: (after ++ ')' :: (gap ++ ';' :: rest)))) =
              some (after ++ ')' :: (gap ++ ';' :: rest)) :=
            after_body_iff.mpr ⟨between, betweenBlank, rfl⟩
          rw [List.append_assoc, List.cons_append, ended] at unended
          cases unended
        | cons d before =>
          obtain ⟨-, rfl⟩ := List.cons.inj split
          exact short ⟨before, between, after, betweenBlank, rfl⟩
    · rintro ⟨short, gap, blank, split⟩
      cases body with
      | nil => rw [after_body_iff.mpr ⟨gap, blank, split⟩]
      | cons d body =>
        obtain ⟨rfl, tail⟩ := List.cons.inj split
        cases ended : afterBody? (c :: cs) with
        | none =>
          have later := ih.mpr ⟨fun closes => short (closes_cons closes), gap, blank, tail⟩
          simp only [later, Option.map_some]
        | some after =>
          obtain ⟨between, betweenBlank, same⟩ := after_body_iff.mp ended
          obtain ⟨rfl, start⟩ := List.cons.inj same
          obtain ⟨inner, rfl⟩ := closes_before betweenBlank (tail.symm.trans start)
          exact absurd ⟨[], between, inner, betweenBlank, rfl⟩ short

theorem read_statement_iff {cs rest : List Char} {statement : Statement} :
    readStatement? cs = some (statement, rest) ↔
      ∃ segment, Segment statement segment ∧ cs = segment ++ rest := by
  constructor
  · intro found
    obtain ⟨⟨schema, table, between⟩, opened, found⟩ := Option.bind_eq_some_iff.mp found
    obtain ⟨⟨body, last⟩, ended, found⟩ := Option.bind_eq_some_iff.mp found
    cases found
    obtain ⟨head, heads, rfl⟩ := read_head_iff.mp opened
    obtain ⟨short, gap, blank, rfl⟩ := read_body_iff.mp ended
    exact ⟨_, .intro heads short blank, by simp⟩
  · rintro ⟨segment, ⟨head, short, blank⟩, rfl⟩
    rename_i schema table headText body gap
    have opened := read_head_complete head (body ++ ')' :: (gap ++ ';' :: rest))
    have ended : readBody? (body ++ ')' :: (gap ++ ';' :: rest)) = some (body, rest) :=
      read_body_iff.mpr ⟨short, gap, blank, rfl⟩
    simp only [List.append_assoc, List.cons_append, List.nil_append, readStatement?, opened, ended,
      Option.bind_eq_bind, Option.bind_some]
    rfl

end SourceDiagram.Schema
