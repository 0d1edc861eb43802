import SourceDiagram.Proofs.Json.Grammar

set_option autoImplicit false

namespace SourceDiagram.Json

def Solid (cs : List Char) : Prop :=
  ∀ c ∈ cs.head?, isSpace c = false

def Ends (cs : List Char) : Prop :=
  ∀ c ∈ cs.head?, isPlainChar c = false

theorem after_space_append {gap rest : List Char} (blank : Space gap) (solid : Solid rest) :
    afterSpace (gap ++ rest) = rest := by
  rw [afterSpace, List.dropWhile_append_of_pos blank]
  cases rest with
  | nil => rfl
  | cons c cs => rw [List.dropWhile_cons_of_neg (by simp [solid c rfl])]

theorem after_mark_same (mark : Char) (rest : List Char) :
    afterMark? mark (mark :: rest) = some rest := by
  rw [afterMark?, if_pos rfl]

theorem after_mark_other {mark c : Char} (other : c ≠ mark) (rest : List Char) :
    afterMark? mark (c :: rest) = none := by
  rw [afterMark?, if_neg other]

theorem read_character {c : Char} {written : List Char} (spelled : CharacterText c written)
    (rest : List Char) : readCharacter? (written ++ rest) = some (c, rest) := by
  cases spelled with
  | plain notQuote notBackslash visible =>
    have printed : ¬ (c = '"' ∨ c = '\\' ∨ c.toNat < 32) := by
      rintro (quote | backslash | control)
      · exact notQuote quote
      · exact notBackslash backslash
      · exact Nat.not_lt.mpr visible control
    rw [List.singleton_append, readCharacter?, if_neg printed]
    · exact fun _ same _ => notBackslash same
    · exact fun _ _ same _ => notBackslash same
  | @escaped letter c found =>
    have simple : letter ≠ 'u' := by
      rintro rfl
      cases found
    show readCharacter? ('\\' :: letter :: rest) = _
    rw [readCharacter?, found, Option.map_some]
    exact simple
  | coded spelled upper lower =>
    simp [readCharacter?, readCode?, spelled, upper, lower]
  | halves first upper second lower =>
    simp [readCharacter?, readCode?, first, upper, second, lower]

theorem character_opens {c : Char} {written : List Char} (spelled : CharacterText c written) :
    ∃ first later, written = first :: later ∧ first ≠ '"' := by
  cases spelled with
  | plain notQuote _ _ => exact ⟨_, _, rfl, notQuote⟩
  | escaped _ => exact ⟨_, _, rfl, by decide⟩
  | coded _ _ _ => exact ⟨_, _, rfl, by decide⟩
  | halves _ _ _ _ => exact ⟨_, _, rfl, by decide⟩

theorem read_text {cs written : List Char} (spelled : StringText cs written) {limit : Nat}
    (enough : written.length < limit) (rest : List Char) :
    readText? limit (written ++ '"' :: rest) = some (cs, rest) := by
  induction spelled generalizing limit with
  | nil =>
    cases limit with
    | zero => cases enough
    | succ limit => rw [readText?, List.nil_append, after_mark_same]
  | @cons c cs first later character _ ih =>
    cases limit with
    | zero => cases enough
    | succ limit =>
      obtain ⟨opening, tail, split, other⟩ := character_opens character
      have unclosed : afterMark? '"' (first ++ (later ++ '"' :: rest)) = none := by
        rw [split, List.cons_append, after_mark_other other]
      have fewer : later.length < limit := by
        rw [split] at enough
        simp only [List.length_append, List.length_cons] at enough
        omega
      rw [List.append_assoc, readText?, unclosed]
      simp only [read_character character, ih fewer, Option.bind_eq_bind, Option.bind_some,
        Option.pure_def]

theorem digit_plain {c : Char} (digit : c.isDigit = true) : isPlainChar c = true := by
  simp [isPlainChar, Char.isAlphanum, digit]

theorem digit_not {c d : Char} (digit : c.isDigit = true) (other : d.isDigit = false) : c ≠ d := by
  rintro rfl
  rw [digit] at other
  cases other

theorem digits_accepted {cs : List Char} (digits : Digits cs) : isDigits cs = true := by
  rw [isDigits, Bool.and_eq_true, Bool.not_eq_true', List.isEmpty_eq_false_iff, List.all_eq_true]
  exact digits

theorem decimal_accepted {whole fraction : List Char} (first : Whole whole)
    (second : Fraction fraction) : isDecimal (whole ++ fraction) = true := by
  have undotted : ∀ c ∈ whole, (c != '.') = true := by
    intro c member
    exact bne_iff_ne.mpr (digit_not (first.1.2 c member) (by decide))
  have split : (whole ++ fraction).takeWhile (· != '.') = whole ∧
      (whole ++ fraction).dropWhile (· != '.') = fraction := by
    rw [List.takeWhile_append_of_pos undotted, List.dropWhile_append_of_pos undotted]
    cases second <;> simp
  have lead : (whole.length = 1 || whole.head? != some '0') = true := by
    by_cases zero : whole.head? = some '0'
    · simp [first.2 zero]
    · simp [zero]
  have tail : (fraction.isEmpty || isDigits (fraction.drop 1)) = true := by
    cases second with
    | absent => rfl
    | present digits => simp [digits_accepted digits]
  simp only [isDecimal, split.1, split.2, digits_accepted first.1, lead, tail, Bool.and_self]

theorem exponent_accepted {cs : List Char} (exponent : Exponent cs) : isExponent cs = true := by
  cases exponent with
  | absent => rfl
  | @present mark sign digits _ signed written =>
    rcases signed with rfl | rfl | rfl
    · cases digits with
      | nil => exact absurd rfl written.1
      | cons digit digits =>
        have first := written.2 digit List.mem_cons_self
        rw [List.nil_append, isExponent, digits_accepted written]
        · exact fun _ same => digit_not first (by decide) (List.cons.inj same).1
        · exact fun _ same => digit_not first (by decide) (List.cons.inj same).1
    · exact digits_accepted written
    · exact digits_accepted written

theorem exponent_mark_apart {c : Char} (plain : c.isDigit = true ∨ c = '.') :
    isExponentMark c = false := by
  rcases plain with digit | rfl
  · simp [isExponentMark, digit_not digit (show 'e'.isDigit = false by decide),
      digit_not digit (show 'E'.isDigit = false by decide)]
  · decide

theorem decimal_chars {whole fraction : List Char} (first : Whole whole) (second : Fraction fraction) :
    ∀ c ∈ whole ++ fraction, c.isDigit = true ∨ c = '.' := by
  intro c member
  rcases List.mem_append.mp member with before | behind
  · exact .inl (first.1.2 c before)
  · cases second with
    | absent => cases behind
    | present digits =>
      rcases List.mem_cons.mp behind with rfl | later
      · exact .inr rfl
      · exact .inl (digits.2 c later)

theorem numeral_accepted {cs : List Char} (numeral : Numeral cs) : isNumeral cs = true := by
  cases numeral with
  | @intro sign whole fraction exponent signed first second third =>
    have unsigned : (if (sign ++ (whole ++ (fraction ++ exponent))).head? = some '-' then
        (sign ++ (whole ++ (fraction ++ exponent))).drop 1
        else sign ++ (whole ++ (fraction ++ exponent))) = (whole ++ fraction) ++ exponent := by
      rw [List.append_assoc]
      rcases signed with rfl | rfl
      · cases whole with
        | nil => exact absurd rfl first.1.1
        | cons digit digits =>
          have other := digit_not (first.1.2 digit List.mem_cons_self)
            (show '-'.isDigit = false by decide)
          simp [other]
      · rfl
    have unmarked : ∀ c ∈ whole ++ fraction, (!isExponentMark c) = true := by
      intro c member
      rw [exponent_mark_apart (decimal_chars first second c member)]
      rfl
    have stops : exponent.takeWhile (fun c => !isExponentMark c) = [] ∧
        exponent.dropWhile (fun c => !isExponentMark c) = exponent := by
      cases third with
      | absent => exact ⟨rfl, rfl⟩
      | present mark _ _ => rcases mark with rfl | rfl <;> simp [isExponentMark]
    rw [isNumeral, unsigned, List.takeWhile_append_of_pos unmarked,
      List.dropWhile_append_of_pos unmarked, stops.1, stops.2, List.append_nil,
      decimal_accepted first second, exponent_accepted third]
    rfl

theorem numeral_plain {cs : List Char} (numeral : Numeral cs) :
    cs ≠ [] ∧ ∀ c ∈ cs, isPlainChar c = true := by
  cases numeral with
  | @intro sign whole fraction exponent signed first second third =>
    constructor
    · simp [first.1.1]
    · have signs : ∀ c, c = '-' ∨ c = '+' ∨ c = '.' ∨ c = 'e' ∨ c = 'E' → isPlainChar c = true := by
        rintro c (rfl | rfl | rfl | rfl | rfl) <;> decide
      intro c member
      rw [← List.append_assoc whole, List.mem_append, List.mem_append] at member
      rcases member with before | decimal | behind
      · rcases signed with rfl | rfl
        · cases before
        · exact signs c (.inl (List.mem_singleton.mp before))
      · rcases decimal_chars first second c decimal with digit | dot
        · exact digit_plain digit
        · exact signs c (.inr (.inr (.inl dot)))
      · cases third with
        | absent => cases behind
        | present mark signed digits =>
          rcases List.mem_cons.mp behind with rfl | later
          · exact signs c (.inr (.inr (.inr mark)))
          · rcases List.mem_append.mp later with sign | digit
            · rcases signed with rfl | rfl | rfl
              · cases sign
              · exact signs c (.inr (.inl (List.mem_singleton.mp sign)))
              · exact signs c (.inl (List.mem_singleton.mp sign))
            · exact digit_plain (digits.2 c digit)

theorem Ends.closing {mark : Char} (bracket : mark = ']' ∨ mark = '\x7d' ∨ mark = ',')
    {gap : List Char} (blank : Space gap) (rest : List Char) : Ends (gap ++ mark :: rest) := by
  intro c first
  cases gap with
  | nil =>
    cases first
    rcases bracket with rfl | rfl | rfl <;> decide
  | cons space gap =>
    cases first
    have space := blank c List.mem_cons_self
    simp only [isSpace, Bool.or_eq_true, beq_iff_eq] at space
    rcases space with ((rfl | rfl) | rfl) | rfl <;> decide

section Lists

variable {α : Type} {one : α → List Char → Prop} {read : List Char → Option (α × List Char)}
  {closing : Char} {bound : Nat}

-- Whether a reader reads what a grammar writes, up to some length.
def Reads (one : α → List Char → Prop) (read : List Char → Option (α × List Char)) (bound : Nat) :
    Prop :=
  ∀ item written, one item written → written.length ≤ bound →
    ∀ rest, Ends rest → read (written ++ rest) = some (item, rest)

def Opens (one : α → List Char → Prop) (closing : Char) : Prop :=
  ∀ item written, one item written →
    ∃ c cs, written = c :: cs ∧ isSpace c = false ∧ c ≠ closing

theorem Opens.solid (opens : Opens one closing) {item : α} {written : List Char}
    (spelled : one item written) (rest : List Char) : Solid (written ++ rest) := by
  obtain ⟨first, later, rfl, solid, -⟩ := opens item written spelled
  intro c same
  cases same
  exact solid

theorem read_listed (reads : Reads one read bound) (opens : Opens one closing)
    (bracket : closing = ']' ∨ closing = '\x7d') {items : List α} {written : List Char}
    (listed : Listed one items written) (short : written.length ≤ bound) {limit : Nat}
    (enough : written.length < limit) (rest : List Char) :
    readListed? read closing limit (written ++ closing :: rest) = some (items, rest) := by
  have marks : Solid (closing :: rest) ∧ ∀ tail, Solid (',' :: tail) := by
    constructor
    · intro c same
      cases same
      rcases bracket with rfl | rfl <;> decide
    · intro tail c same
      cases same
      decide
  have apart : ',' ≠ closing := by
    rcases bracket with rfl | rfl <;> decide
  induction listed generalizing limit with
  | @last item before written after blank spelled behind =>
    cases limit with
    | zero => cases enough
    | succ limit =>
      simp only [List.length_append] at short
      have item := reads item written spelled (by omega) (after ++ closing :: rest)
        (.closing (bracket.elim .inl fun same => .inr (.inl same)) behind rest)
      have split : before ++ (written ++ after) ++ closing :: rest =
          before ++ (written ++ (after ++ closing :: rest)) := by
        simp only [List.append_assoc]
      rw [split, readListed?, after_space_append blank (opens.solid spelled _), item]
      simp only [Option.bind_eq_bind, Option.bind_some, after_space_append behind marks.1,
        after_mark_same, Option.pure_def]
  | @more item items before written after tail blank spelled behind _ ih =>
    cases limit with
    | zero => cases enough
    | succ limit =>
      simp only [List.length_append, List.length_cons] at short enough
      have item := reads item written spelled (by omega) (after ++ ',' :: (tail ++ closing :: rest))
        (.closing (.inr (.inr rfl)) behind _)
      have split : before ++ (written ++ (after ++ ',' :: tail)) ++ closing :: rest =
          before ++ (written ++ (after ++ ',' :: (tail ++ closing :: rest))) := by
        simp only [List.append_assoc, List.cons_append]
      have later : readListed? read closing limit (tail ++ closing :: rest) = some (items, rest) :=
        ih (by omega) (by omega)
      rw [split, readListed?, after_space_append blank (opens.solid spelled _), item]
      simp only [Option.bind_eq_bind, Option.bind_some, after_space_append behind (marks.2 _),
        after_mark_other apart, after_mark_same, later, Option.pure_def]

theorem read_list (reads : Reads one read bound) (opens : Opens one closing)
    (bracket : closing = ']' ∨ closing = '\x7d') {items : List α} {written : List Char}
    (listed : Listed one items written) (short : written.length ≤ bound) {limit : Nat}
    (enough : written.length < limit) (rest : List Char) :
    readList? read closing limit (written ++ closing :: rest) = some (items, rest) := by
  have whole := read_listed reads opens bracket listed short enough rest
  have first : afterMark? closing (afterSpace (written ++ closing :: rest)) = none := by
    have begins : ∃ item before inner later, Space before ∧ one item inner ∧
        written = before ++ (inner ++ later) := by
      cases listed with
      | last blank spelled _ => exact ⟨_, _, _, _, blank, spelled, rfl⟩
      | more blank spelled _ _ => exact ⟨_, _, _, _, blank, spelled, rfl⟩
    obtain ⟨item, before, inner, later, blank, spelled, rfl⟩ := begins
    obtain ⟨c, cs, split, -, other⟩ := opens item inner spelled
    rw [List.append_assoc, List.append_assoc, after_space_append blank (opens.solid spelled _), split,
      List.cons_append, after_mark_other other]
  rw [readList?, first, whole]

theorem read_empty_list (bracket : closing = ']' ∨ closing = '\x7d') {gap : List Char}
    (blank : Space gap) (limit : Nat) (rest : List Char) :
    readList? read closing limit (gap ++ closing :: rest) = some ([], rest) := by
  have solid : Solid (closing :: rest) := by
    intro c same
    cases same
    rcases bracket with rfl | rfl <;> decide
  rw [readList?, after_space_append blank solid, after_mark_same]

end Lists

theorem plain_opens {written : List Char} (present : written ≠ [])
    (plain : ∀ c ∈ written, isPlainChar c = true) :
    ∃ c cs, written = c :: cs ∧ isSpace c = false ∧ c ≠ ']' ∧ c ≠ '"' ∧ c ≠ '[' ∧ c ≠ '\x7b' := by
  cases written with
  | nil => exact absurd rfl present
  | cons c cs =>
    have first := plain c List.mem_cons_self
    have other : ∀ mark, isPlainChar mark = false → c ≠ mark := by
      rintro mark apart rfl
      rw [first] at apart
      cases apart
    refine ⟨c, cs, rfl, ?_, other _ (by decide), other _ (by decide), other _ (by decide),
      other _ (by decide)⟩
    simp [isSpace, other ' ' (by decide), other '\t' (by decide), other '\n' (by decide),
      other '\r' (by decide)]

theorem plain_value_of_numeral {cs : List Char} (numeral : Numeral cs) :
    plainValue? cs = some (.number (String.ofList cs)) := by
  have accepted := numeral_accepted numeral
  have other : ∀ word, isNumeral word = false → cs ≠ word := by
    rintro word refused rfl
    rw [accepted] at refused
    cases refused
  rw [plainValue?, if_neg (other _ (by decide)), if_neg (other _ (by decide)),
    if_neg (other _ (by decide)), if_pos accepted]

theorem read_plain {written : List Char} {value : Value} (present : written ≠ [])
    (plain : ∀ c ∈ written, isPlainChar c = true) (found : plainValue? written = some value)
    (limit depth : Nat) {rest : List Char} (ends : Ends rest) :
    readValue? limit (depth + 1) (written ++ rest) = some (value, rest) := by
  have stops : rest.takeWhile isPlainChar = [] ∧ rest.dropWhile isPlainChar = rest := by
    cases rest with
    | nil => exact ⟨rfl, rfl⟩
    | cons c cs => simp [ends c rfl]
  have word : (written ++ rest).takeWhile isPlainChar = written ∧
      (written ++ rest).dropWhile isPlainChar = rest := by
    rw [List.takeWhile_append_of_pos plain, List.dropWhile_append_of_pos plain, stops.1, stops.2,
      List.append_nil]
    exact ⟨rfl, rfl⟩
  obtain ⟨c, cs, rfl, -, -, notQuote, notArray, notObject⟩ := plain_opens present plain
  rw [List.cons_append] at word ⊢
  rw [readValue?]
  · simp only [word.1, word.2, found, Option.bind_eq_bind, Option.bind_some, Option.pure_def]
  · exact fun _ same => notQuote (List.cons.inj same).1
  · exact fun _ same => notArray (List.cons.inj same).1
  · exact fun _ same => notObject (List.cons.inj same).1

theorem value_opens : Opens Spells ']' := by
  intro value written spelled
  have plain : written ≠ [] → (∀ c ∈ written, isPlainChar c = true) →
      ∃ c cs, written = c :: cs ∧ isSpace c = false ∧ c ≠ ']' := by
    intro present all
    obtain ⟨c, cs, split, solid, other, -⟩ := plain_opens present all
    exact ⟨c, cs, split, solid, other⟩
  cases spelled with
  | null => exact plain (by decide) (List.all_eq_true.mp rfl)
  | yes => exact plain (by decide) (List.all_eq_true.mp rfl)
  | no => exact plain (by decide) (List.all_eq_true.mp rfl)
  | number numeral => exact plain (numeral_plain numeral).1 (numeral_plain numeral).2
  | string _ => exact ⟨_, _, rfl, by decide, by decide⟩
  | emptyArray _ => exact ⟨_, _, rfl, by decide, by decide⟩
  | array _ => exact ⟨_, _, rfl, by decide, by decide⟩
  | emptyObject _ => exact ⟨_, _, rfl, by decide, by decide⟩
  | object _ => exact ⟨_, _, rfl, by decide, by decide⟩

theorem entry_opens : Opens SpellsEntry '\x7d' := by
  intro entry written spelled
  cases spelled with
  | intro _ _ _ _ => exact ⟨_, _, rfl, by decide, by decide⟩

theorem read_entry {read : List Char → Option (Value × List Char)} {bound limit : Nat}
    (reads : Reads Spells read bound) (enough : bound ≤ limit) :
    Reads SpellsEntry (readMember? read limit) bound := by
  intro entry written spelled short rest ends
  cases spelled with
  | @intro key value quoted before after written characters blank behind inner =>
    simp only [List.length_append, List.length_cons] at short
    have colon : ∀ tail, Solid (':' :: tail) := by
      intro tail c same
      cases same
      decide
    have text := read_text characters (show quoted.length < limit by omega)
      (before ++ ':' :: (after ++ (written ++ rest)))
    have value := reads value written inner (by omega) rest ends
    have split : '"' :: (quoted ++ '"' :: (before ++ ':' :: (after ++ written))) ++ rest =
        '"' :: (quoted ++ '"' :: (before ++ ':' :: (after ++ (written ++ rest)))) := by
      simp only [List.append_assoc, List.cons_append]
    rw [split, readMember?, after_mark_same]
    simp only [Option.bind_eq_bind, Option.bind_some, text, after_space_append blank (colon _),
      after_mark_same, after_space_append behind (value_opens.solid inner rest), value,
      String.ofList_toList, Option.pure_def]

theorem read_value (limit depth : Nat) (enough : depth ≤ limit) :
    Reads Spells (readValue? limit depth) depth := by
  induction depth with
  | zero =>
    intro value written spelled short
    obtain ⟨c, cs, rfl, -⟩ := value_opens value written spelled
    cases short
  | succ depth ih =>
    intro value written spelled short rest ends
    have inner := ih (by omega)
    cases spelled with
    | null => exact read_plain (by decide) (List.all_eq_true.mp rfl) rfl limit depth ends
    | yes => exact read_plain (by decide) (List.all_eq_true.mp rfl) rfl limit depth ends
    | no => exact read_plain (by decide) (List.all_eq_true.mp rfl) rfl limit depth ends
    | @number literal numeral =>
      obtain ⟨present, plain⟩ := numeral_plain numeral
      have found := plain_value_of_numeral numeral
      rw [String.ofList_toList] at found
      exact read_plain present plain found limit depth ends
    | @string text quoted characters =>
      simp only [List.length_append, List.length_cons] at short
      have read := read_text characters (show quoted.length < limit by omega) rest
      have split : '"' :: (quoted ++ ['"']) ++ rest = '"' :: (quoted ++ '"' :: rest) := by simp
      rw [split, readValue?, read]
      simp only [Option.bind_eq_bind, Option.bind_some, String.ofList_toList, Option.pure_def]
    | @emptyArray gap blank =>
      have split : '[' :: (gap ++ [']']) ++ rest = '[' :: (gap ++ ']' :: rest) := by simp
      rw [split, readValue?, read_empty_list (.inl rfl) blank]
      rfl
    | @array items inside listed =>
      simp only [List.length_append, List.length_cons] at short
      have read := read_list inner value_opens (.inl rfl) listed (by omega)
        (show inside.length < limit by omega) rest
      have split : '[' :: (inside ++ [']']) ++ rest = '[' :: (inside ++ ']' :: rest) := by simp
      rw [split, readValue?, read]
      rfl
    | @emptyObject gap blank =>
      have split : '\x7b' :: (gap ++ ['\x7d']) ++ rest = '\x7b' :: (gap ++ '\x7d' :: rest) := by simp
      rw [split, readValue?, read_empty_list (.inr rfl) blank]
      rfl
    | @object entries inside listed =>
      simp only [List.length_append, List.length_cons] at short
      have read := read_list (read_entry inner (show depth ≤ limit by omega)) entry_opens (.inr rfl)
        listed (by omega) (show inside.length < limit by omega) rest
      have split : '\x7b' :: (inside ++ ['\x7d']) ++ rest =
          '\x7b' :: (inside ++ '\x7d' :: rest) := by simp
      rw [split, readValue?, read]
      rfl

theorem space_ends {gap : List Char} (blank : Space gap) : Ends gap := by
  intro c first
  have closed := Ends.closing (.inl rfl) blank []
  cases gap with
  | nil => cases first
  | cons space gap => exact closed c first

theorem parse_text {value : Value} {text : String} (written : TextOf value text.toList) :
    parse? text = some value := by
  generalize characters : text.toList = cs at written
  cases written with
  | @intro before inner after blank spelled behind =>
    have solid : Solid (inner ++ after) := value_opens.solid spelled after
    have shorter : inner.length ≤ (before ++ (inner ++ after)).length := by
      simp only [List.length_append]
      omega
    have read := read_value _ _ (Nat.le_refl _) value inner spelled shorter after (space_ends behind)
    have all : after.all isSpace = true := List.all_eq_true.mpr behind
    rw [parse?, characters]
    simp only [after_space_append blank solid, read, Option.bind_eq_bind, Option.bind_some, all,
      if_true]

theorem text_of_one_value {value other : Value} {text : String} (written : TextOf value text.toList)
    (rewritten : TextOf other text.toList) : other = value := by
  have read := parse_text written
  rw [parse_text rewritten] at read
  exact Option.some.inj read

end SourceDiagram.Json
