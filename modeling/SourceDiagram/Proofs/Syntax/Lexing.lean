import SourceDiagram.Syntax.Cursor

set_option autoImplicit false

namespace SourceDiagram.Syntax

open SourceDiagram.Text

def Solid (c : Char) : Prop :=
  c ∉ ['\n', ' ', '\t', '\r', '\x0c', '\x0b', '\ufeff', '\u200b', '\u2060', '#', '\\']

instance (c : Char) : Decidable (Solid c) :=
  inferInstanceAs (Decidable (c ∉ _))

def Begins (text : List Char) : Prop :=
  ∀ c ∈ text.head?, Solid c

namespace Gap

theorem scan_space {state : Scan} (quiet : state.comment = none) (text : List Char) :
    scan state (' ' :: text) = scan (state.pass (Option.map (· + 1))) text := by
  rw [scan]
  · simp [quiet]
  · simp
  · simp
  · simp

theorem scan_break {state : Scan} (quiet : state.comment = none) (text : List Char) :
    scan state ('\n' :: text) = scan (state.pass fun _ => some 0) text := by
  rw [scan]
  · simp [quiet]
  · simp
  · simp
  · simp

theorem scan_begins {state : Scan} (quiet : state.comment = none) {c : Char} {text : List Char}
    (solid : Solid c) : scan state (c :: text) = (state.finish, c :: text) := by
  simp only [Solid, List.mem_cons, not_or] at solid
  rw [scan]
  · simp [quiet, solid]
  · intro rest same
    exact absurd same solid.2.2.2.2.2.2.2.2.2.2.1
  · intro rest same
    exact absurd same solid.2.2.2.2.2.2.2.2.2.2.1
  · intro same
    exact absurd same solid.2.2.2.2.2.2.2.2.2.2.1

theorem scan_spaces (width : Nat) (column : Option Nat) (length : Nat) (text : List Char) :
    scan ⟨column, none, false, none, [], length⟩ (List.replicate width ' ' ++ text) =
      scan ⟨column.map (· + width), none, false, none, [], length + width⟩ text := by
  induction width generalizing column length with
  | zero => simp
  | succ width ih =>
    rw [List.replicate_succ, List.cons_append, scan_space rfl, Scan.pass, if_neg (by simp), ih]
    congr 2
    · cases column with
      | none => rfl
      | some column => simp only [Option.map_some, Nat.add_right_comm, Nat.add_assoc]
    · dsimp only
      omega

theorem scan_breaks (count : Nat) (column : Option Nat) (length : Nat) (text : List Char) :
    scan ⟨column, none, false, none, [], length⟩ (List.replicate (count + 1) '\n' ++ text) =
      scan ⟨some 0, none, false, none, [], length + (count + 1)⟩ text := by
  induction count generalizing column length with
  | zero => exact scan_break rfl text
  | succ count ih =>
    rw [List.replicate_succ, List.cons_append, scan_break rfl, Scan.pass, if_neg (by simp), ih]
    congr 2
    dsimp only
    omega

end Gap

structure Shows (here : List Char) (lexeme : Lexeme) (rest : List Char) : Prop where
  begins : Begins here
  present : here ≠ []
  scanned : ∃ length, Lexeme.scan here = (lexeme, length) ∧ here.drop length = rest

-- What stands between the last lexeme passed and the text after the next one.
structure Meets (text : List Char) (level : Option Nat) (lexeme : Lexeme) (rest : List Char) :
    Prop where
  column : (Gap.ofText text).1.column = level
  margin : (Gap.ofText text).1.margin = level.getD 0
  passed : (Gap.ofText text).1.passed = []
  lexeme : (Lexeme.scan (Gap.ofText text).2).1 = lexeme
  rest : (Gap.ofText text).2.drop (Lexeme.scan (Gap.ofText text).2).2 = rest

section

variable {here rest : List Char} {lexeme : Lexeme}

theorem Shows.scan_begins (shows_ : Shows here lexeme rest) {state : Gap.Scan}
    (quiet : state.comment = none) : Gap.scan state here = (state.finish, here) := by
  cases here with
  | nil => exact absurd rfl shows_.present
  | cons c text => exact Gap.scan_begins quiet (shows_.begins c rfl)

theorem Shows.meets (shows_ : Shows here lexeme rest) {text : List Char} {level : Option Nat}
    {length : Nat}
    (scanned : Gap.ofText text = Gap.scan ⟨level, none, false, none, [], length⟩ here) :
    Meets text level lexeme rest := by
  rw [shows_.scan_begins rfl] at scanned
  obtain ⟨length, found, dropped⟩ := shows_.scanned
  constructor
  · rw [scanned]
    rfl
  · rw [scanned]
    cases level with
    | none => rfl
    | some level => exact Nat.min_self level
  · rw [scanned]
    rfl
  · rw [scanned, found]
  · rw [scanned, found, dropped]

theorem Shows.now (shows_ : Shows here lexeme rest) : Meets here none lexeme rest :=
  shows_.meets rfl

theorem Shows.spaced (shows_ : Shows here lexeme rest) : Meets (' ' :: here) none lexeme rest :=
  shows_.meets (Gap.scan_spaces 1 none 0 here)

theorem Shows.lined (shows_ : Shows here lexeme rest) (count width : Nat) :
    Meets (List.replicate (count + 1) '\n' ++ (List.replicate width ' ' ++ here)) (some width)
      lexeme rest := by
  have scanned :
      Gap.ofText (List.replicate (count + 1) '\n' ++ (List.replicate width ' ' ++ here)) =
        Gap.scan ⟨some width, none, false, none, [], 0 + (count + 1) + width⟩ here := by
    rw [Gap.ofText, Gap.Scan.start, Gap.scan_breaks, Gap.scan_spaces]
    simp
  exact shows_.meets scanned

end

-- What may stand before a lexeme; a line break leads to a column.
def Leads (gap : List Char) (level : Option Nat) : Prop :=
  ∀ {here rest : List Char} {lexeme : Lexeme}, Shows here lexeme rest →
    Meets (gap ++ here) level lexeme rest

theorem leads_nothing : Leads [] none :=
  fun shows_ => shows_.now

theorem leads_space : Leads [' '] none :=
  fun shows_ => shows_.spaced

theorem leads_line (count width : Nat) :
    Leads (List.replicate (count + 1) '\n' ++ List.replicate width ' ') (some width) := by
  intro here rest lexeme shows_
  rw [List.append_assoc]
  exact shows_.lined count width

def Delimits (c : Char) : Prop :=
  c ∈ ['.', '[', ']', '(', ')', ',', ':', '=', ' ', '\n']

instance (c : Char) : Decidable (Delimits c) :=
  inferInstanceAs (Decidable (c ∈ _))

def Apart (text : List Char) : Prop :=
  ∀ c ∈ text.head?, Delimits c

theorem apart_cons {c : Char} (text : List Char) (delimits : Delimits c) : Apart (c :: text) := by
  rintro d ⟨⟩
  exact delimits

def isQuoteMark (c : Char) : Bool :=
  c == '\x60' || c == '\'' || c == '"'

structure IsWord (letters : List Char) : Prop where
  begins : ∃ c text, letters = c :: text ∧ isIdentifierStart c = true
  letters : ∀ c ∈ letters, isIdentifierPart c = true

theorem is_word_iff (letters : List Char) :
    (letters.head?.any isIdentifierStart && letters.all isIdentifierPart) = true ↔
      IsWord letters := by
  cases letters with
  | nil =>
    refine ⟨fun both => absurd both (by simp), fun word => ?_⟩
    obtain ⟨_, _, none, _⟩ := word.begins
    cases none
  | cons c letters =>
    rw [Bool.and_eq_true, List.all_eq_true]
    refine ⟨fun both => ⟨⟨c, letters, rfl, both.1⟩, both.2⟩, fun word => ⟨?_, word.letters⟩⟩
    obtain ⟨_, _, same, start⟩ := word.begins
    cases same
    exact start

instance (letters : List Char) : Decidable (IsWord letters) :=
  decidable_of_iff _ (is_word_iff letters)

theorem delimits_plain {c : Char} (delimits : Delimits c) :
    isIdentifierPart c = false ∧ isQuoteMark c = false ∧ Quote.isFlag c = false := by
  have plain : ['.', '[', ']', '(', ')', ',', ':', '=', ' ', '\n'].all
      (fun c => !isIdentifierPart c && !isQuoteMark c && !Quote.isFlag c) = true := by decide
  simpa [and_assoc] using List.all_eq_true.mp plain c delimits

theorem part_not_quote {c : Char} (part : isIdentifierPart c = true) : isQuoteMark c = false := by
  cases quoted : isQuoteMark c with
  | false => rfl
  | true =>
    simp only [isQuoteMark, Bool.or_eq_true, beq_iff_eq] at quoted
    rcases quoted with (rfl | rfl) | rfl
    · exact absurd part (by decide)
    · exact absurd part (by decide)
    · exact absurd part (by decide)

theorem start_solid {c : Char} (start : isIdentifierStart c = true) : Solid c := by
  intro member
  have blanks : ['\n', ' ', '\t', '\r', '\x0c', '\x0b', '\ufeff', '\u200b', '\u2060', '#', '\\'].all
      (fun c => !isIdentifierStart c) = true := by decide +kernel
  simpa [start] using List.all_eq_true.mp blanks c member

theorem no_delimiter (flags : List Char) {text : List Char}
    (plain : ∀ c ∈ text.head?, isQuoteMark c = false) : Quote.ofDelimiter? flags text = none := by
  cases text with
  | nil => rfl
  | cons c text =>
    have other := plain c rfl
    simp only [isQuoteMark, Bool.or_eq_false_iff, beq_eq_false_iff_ne] at other
    unfold Quote.ofDelimiter?
    split <;> simp_all

theorem no_quote {text : List Char} (plain : ∀ c ∈ (text.dropWhile Quote.isFlag).head?,
    isQuoteMark c = false) : Quote.scan? text = none := by
  have dropped : text.drop (text.takeWhile Quote.isFlag).length = text.dropWhile Quote.isFlag :=
    calc text.drop (text.takeWhile Quote.isFlag).length
        = (text.takeWhile Quote.isFlag ++ text.dropWhile Quote.isFlag).drop
            (text.takeWhile Quote.isFlag).length := by rw [List.takeWhile_append_dropWhile]
      _ = text.dropWhile Quote.isFlag := List.drop_left
  rw [Quote.scan?, dropped, no_delimiter _ plain]
  rfl

theorem word_not_quote {letters rest : List Char} (word : IsWord letters) (apart : Apart rest) :
    Quote.scan? (letters ++ rest) = none := by
  apply no_quote
  rw [List.dropWhile_append]
  have after : rest.dropWhile Quote.isFlag = rest := by
    cases rest with
    | nil => rfl
    | cons c rest =>
      rw [List.dropWhile_cons_of_neg]
      simp [(delimits_plain (apart c rfl)).2.2]
  intro c member
  split at member
  · rw [after] at member
    exact (delimits_plain (apart c member)).2.1
  · rename_i left
    cases kept : letters.dropWhile Quote.isFlag with
    | nil => simp [kept] at left
    | cons d text =>
      rw [kept] at member
      have inside : d ∈ letters := by
        apply (List.dropWhile_sublist Quote.isFlag).subset
        rw [kept]
        exact List.mem_cons_self
      obtain rfl : d = c := Option.some.inj member
      exact part_not_quote (word.letters d inside)

theorem shows_word {letters rest : List Char} (word : IsWord letters) (apart : Apart rest) :
    Shows (letters ++ rest)
      (.word (String.ofList letters) (Keyword.ofText? (String.ofList letters))) rest := by
  obtain ⟨c, text, split, start⟩ := word.begins
  have whole : (letters ++ rest).takeWhile isIdentifierPart = letters := by
    rw [List.takeWhile_append_of_pos word.letters]
    cases rest with
    | nil => simp
    | cons d rest => simp [(delimits_plain (apart d rfl)).1]
  have unquoted := word_not_quote word apart
  subst split
  refine ⟨?_, by simp, _, ?_, List.drop_left⟩
  · rintro d ⟨⟩
    exact start_solid start
  · rw [List.cons_append] at unquoted whole ⊢
    simp only [Lexeme.scan, unquoted, if_pos start, whole]

theorem shows_mark (spelling : List Char) {here rest : List Char} {mark : Mark}
    (split : here = spelling ++ rest) (solid : ∀ c ∈ spelling.head?, Solid c)
    (present : spelling ≠ [])
    (scanned : Lexeme.scan here = (.mark mark, spelling.length)) :
    Shows here (.mark mark) rest := by
  cases spelling with
  | nil => exact absurd rfl present
  | cons c spelling =>
    refine ⟨?_, by simp [split], _, scanned, by simp [split]⟩
    rw [split]
    rintro d ⟨⟩
    exact solid c rfl

def Marking (c : Char) : Prop :=
  c ∈ ['(', ')', '[', ']', ',', ':', '=', '|', '*', '@', '-']

theorem groups_none {c : Char} (plain : c.isDigit = false) (text : List Char) :
    Numeral.groupsLength (c :: text) = 0 := by
  unfold Numeral.groupsLength
  split <;> simp_all

instance (c : Char) : Decidable (Marking c) :=
  inferInstanceAs (Decidable (c ∈ _))

theorem mark_scanned {c : Char} (marking : Marking c) (text : List Char) {mark : Mark}
    {length : Nat} (found : Mark.scan? (c :: text) = some (mark, length)) :
    Lexeme.scan (c :: text) = (.mark mark, length) := by
  have plain : ['(', ')', '[', ']', ',', ':', '=', '|', '*', '@', '-'].all (fun c =>
      !isIdentifierStart c && !isQuoteMark c && !Quote.isFlag c && !c.isDigit && c != '.' &&
      c != '0') = true := by decide
  have facts := List.all_eq_true.mp plain c marking
  simp only [Bool.and_eq_true, Bool.not_eq_true', bne_iff_ne] at facts
  obtain ⟨⟨⟨⟨⟨start, quote⟩, flag⟩, digit⟩, dot⟩, zero⟩ := facts
  have unquoted : Quote.scan? (c :: text) = none := by
    apply no_quote
    rw [List.dropWhile_cons_of_neg (by simp [flag])]
    rintro d ⟨⟩
    exact quote
  have unnumbered : Numeral.scan? (c :: text) = none := by
    have based : Numeral.basedLength? (c :: text) = none := by
      unfold Numeral.basedLength?
      split <;> simp_all
    simp [Numeral.scan?, based, groups_none digit, dot]
  simp only [Lexeme.scan, unquoted, start, unnumbered, found]
  rfl

theorem shows_bracket {c : Char} {mark : Mark} (known : (c, mark) ∈ [('(', Mark.leftParen),
      (')', .rightParen), ('[', .leftBracket), (']', .rightBracket), (',', .comma)])
    (rest : List Char) : Shows (c :: rest) (.mark mark) rest := by
  have marked : Marking c ∧ Solid c ∧ Mark.scan? (c :: rest) = some (mark, 1) := by
    simp only [List.mem_cons, Prod.mk.injEq, List.not_mem_nil, or_false] at known
    rcases known with ⟨rfl, rfl⟩ | ⟨rfl, rfl⟩ | ⟨rfl, rfl⟩ | ⟨rfl, rfl⟩ | ⟨rfl, rfl⟩ <;>
      exact ⟨by decide, by decide, rfl⟩
  refine shows_mark [c] rfl ?_ (by simp) (mark_scanned marked.1 rest marked.2.2)
  rintro d ⟨⟩
  exact marked.2.1

theorem shows_sign {c : Char} {mark : Mark} (known : (c, mark) ∈ [(':', Mark.colon),
      ('=', .assign), ('|', .bar), ('*', .star), ('@', .at_)]) {rest : List Char}
    (next : ∀ d ∈ rest.head?, d ≠ '=' ∧ d ≠ '*') : Shows (c :: rest) (.mark mark) rest := by
  have marked : Marking c ∧ Solid c ∧ Mark.scan? (c :: rest) = some (mark, 1) := by
    simp only [List.mem_cons, Prod.mk.injEq, List.not_mem_nil, or_false] at known
    cases rest with
    | nil =>
      rcases known with ⟨rfl, rfl⟩ | ⟨rfl, rfl⟩ | ⟨rfl, rfl⟩ | ⟨rfl, rfl⟩ | ⟨rfl, rfl⟩ <;>
        exact ⟨by decide, by decide, rfl⟩
    | cons d rest =>
      obtain ⟨equals, star⟩ := next d rfl
      rcases known with ⟨rfl, rfl⟩ | ⟨rfl, rfl⟩ | ⟨rfl, rfl⟩ | ⟨rfl, rfl⟩ | ⟨rfl, rfl⟩ <;>
        exact ⟨by decide, by decide, by
          simp [Mark.scan?, Mark.spellings, List.isPrefixOf, Ne.symm equals, Ne.symm star]⟩
  refine shows_mark [c] rfl ?_ (by simp) (mark_scanned marked.1 rest marked.2.2)
  rintro d ⟨⟩
  exact marked.2.1

theorem shows_arrow (rest : List Char) : Shows ('-' :: '>' :: rest) (.mark .arrow) rest :=
  shows_mark ['-', '>'] rfl (by simp; decide) (by simp)
    (mark_scanned (by decide) _ rfl)

theorem shows_double_star {rest : List Char} (next : ∀ d ∈ rest.head?, d ≠ '=') :
    Shows ('*' :: '*' :: rest) (.mark .doubleStar) rest := by
  refine shows_mark ['*', '*'] rfl (by simp; decide) (by simp)
    (mark_scanned (by decide) _ ?_)
  cases rest with
  | nil => rfl
  | cons d rest =>
    simp [Mark.scan?, Mark.spellings, List.isPrefixOf, Ne.symm (next d rfl)]

theorem start_plain {c : Char} (start : isIdentifierStart c = true) :
    c.isDigit = false ∧ c ≠ '.' ∧ c ≠ '=' ∧ c ≠ '*' := by
  refine ⟨?_, ?_, ?_, ?_⟩
  · cases digit : c.isDigit with
    | false => rfl
    | true =>
      simp only [Char.isDigit, Bool.and_eq_true, decide_eq_true_eq, UInt32.le_iff_toNat_le] at digit
      have bound : c.toNat < 128 := Nat.lt_of_le_of_lt digit.2 (by decide)
      have letter : (decide ('A'.val ≤ c.val ∧ c.val ≤ 'Z'.val) ||
          ('a'.val ≤ c.val && c.val ≤ 'z'.val) || c == '_') = true := by
        rw [isIdentifierStart, if_pos bound] at start
        exact start
      simp only [Bool.or_eq_true, Bool.and_eq_true, decide_eq_true_eq, beq_iff_eq,
        UInt32.le_iff_toNat_le] at letter
      rcases letter with (⟨low, -⟩ | ⟨low, -⟩) | rfl
      · exact absurd (Nat.le_trans low digit.2) (by decide)
      · exact absurd (Nat.le_trans low digit.2) (by decide)
      · exact absurd digit (by decide)
  · rintro rfl
    exact absurd start (by decide)
  · rintro rfl
    exact absurd start (by decide)
  · rintro rfl
    exact absurd start (by decide)

theorem shows_dot {c : Char} (start : isIdentifierStart c = true) (text : List Char) :
    Shows ('.' :: c :: text) (.mark .dot) (c :: text) := by
  obtain ⟨digit, dot, -⟩ := start_plain start
  have unquoted : Quote.scan? ('.' :: c :: text) = none := by
    apply no_quote
    rintro d ⟨⟩
    rfl
  have unnumbered : Numeral.scan? ('.' :: c :: text) = none := by
    have based : Numeral.basedLength? ('.' :: c :: text) = none := by
      unfold Numeral.basedLength?
      split <;> simp_all
    have whole : Numeral.groupsLength ('.' :: c :: text) = 0 := groups_none rfl _
    simp [Numeral.scan?, based, whole, groups_none digit]
  refine shows_mark ['.'] rfl (by simp; decide) (by simp) ?_
  have found : Mark.scan? ('.' :: c :: text) = some (.dot, 1) := by
    simp [Mark.scan?, Mark.spellings, List.isPrefixOf, Ne.symm dot]
  have start : isIdentifierStart '.' = false := by decide
  simp only [Lexeme.scan, unquoted, start, unnumbered, found]
  rfl

namespace Shows

theorem dot {letters : List Char} (word : IsWord letters) (text : List Char) :
    Shows ('.' :: (letters ++ text)) (.mark .dot) (letters ++ text) := by
  obtain ⟨c, more, rfl, start⟩ := word.begins
  exact shows_dot start _

theorem leftParen (rest : List Char) : Shows ('(' :: rest) (.mark .leftParen) rest :=
  shows_bracket (by simp) rest

theorem rightParen (rest : List Char) : Shows (')' :: rest) (.mark .rightParen) rest :=
  shows_bracket (by simp) rest

theorem leftBracket (rest : List Char) : Shows ('[' :: rest) (.mark .leftBracket) rest :=
  shows_bracket (by simp) rest

theorem rightBracket (rest : List Char) : Shows (']' :: rest) (.mark .rightBracket) rest :=
  shows_bracket (by simp) rest

theorem comma (rest : List Char) : Shows (',' :: rest) (.mark .comma) rest :=
  shows_bracket (by simp) rest

variable {rest : List Char} (next : ∀ d ∈ rest.head?, d ≠ '=' ∧ d ≠ '*')

include next

theorem colon : Shows (':' :: rest) (.mark .colon) rest :=
  shows_sign (by simp) next

theorem bar : Shows ('|' :: rest) (.mark .bar) rest :=
  shows_sign (by simp) next

theorem assign : Shows ('=' :: rest) (.mark .assign) rest :=
  shows_sign (by simp) next

end Shows

theorem meets_end (count : Nat) :
    Meets (List.replicate (count + 1) '\n') (some 0) .ending [] := by
  have scanned := Gap.scan_breaks count none 0 []
  rw [List.append_nil] at scanned
  constructor <;> rw [Gap.ofText, Gap.Scan.start, scanned] <;> rfl

theorem meets_nothing : Meets [] (some 0) .ending [] :=
  ⟨rfl, rfl, rfl, rfl, rfl⟩

end SourceDiagram.Syntax
