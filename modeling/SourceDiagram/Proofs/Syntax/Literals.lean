import Mathlib.Tactic.IntervalCases
import SourceDiagram.Proofs.Syntax.Run
import SourceDiagram.Syntax.Quoted

set_option autoImplicit false

namespace SourceDiagram.Syntax

open SourceDiagram.Text

inductive IsInteger : List Char → Prop where
  | digit {c : Char} : c.isDigit = true → IsInteger [c]
  | more {c : Char} {digits : List Char} : c.isDigit = true → IsInteger digits →
      IsInteger (c :: digits)
  | grouped {c : Char} {digits : List Char} : c.isDigit = true → IsInteger digits →
      IsInteger (c :: '_' :: digits)

-- Characters that a string in a delimiter holds as they stand: none of them ends the string, the
-- line or the module, and none begins an escape.
def IsContent (delimiter : Char) (content : List Char) : Prop :=
  ∀ c ∈ content, c ∉ [delimiter, '\\', '\n', '\x00']

-- A text that a literal ends before; a point would make another number of an integer.
structure Parted (text : List Char) : Prop where
  apart : Apart text
  pointless : '.' ∉ text.head?

theorem parted_cons {c : Char} (text : List Char) (delimits : Delimits c) (other : c ≠ '.') :
    Parted (c :: text) := by
  refine ⟨apart_cons text delimits, ?_⟩
  rintro ⟨⟩
  exact other rfl

theorem IsInteger.begins {digits : List Char} (integer : IsInteger digits) :
    ∃ c more, digits = c :: more ∧ c.isDigit = true := by
  cases integer with
  | digit digit => exact ⟨_, _, rfl, digit⟩
  | more digit _ => exact ⟨_, _, rfl, digit⟩
  | grouped digit _ => exact ⟨_, _, rfl, digit⟩

theorem digit_known {c : Char} (digit : c.isDigit = true) :
    c ∈ ['0', '1', '2', '3', '4', '5', '6', '7', '8', '9'] := by
  simp only [Char.isDigit, Bool.and_eq_true, decide_eq_true_eq, UInt32.le_iff_toNat_le] at digit
  have low : 48 ≤ c.toNat := digit.1
  have high : c.toNat ≤ 57 := digit.2
  rw [← Char.ofNat_toNat c]
  generalize c.toNat = code at low high
  interval_cases code <;> decide

theorem digit_unquoted {c : Char} (digit : c.isDigit = true) :
    isIdentifierStart c = false ∧ isQuoteMark c = false ∧ Quote.isFlag c = false ∧ Solid c := by
  have plain : ['0', '1', '2', '3', '4', '5', '6', '7', '8', '9'].all (fun c =>
      !isIdentifierStart c && !isQuoteMark c && !Quote.isFlag c && decide (Solid c)) = true := by
    decide
  simpa [and_assoc] using List.all_eq_true.mp plain c (digit_known digit)

theorem unbased {c : Char} (inside : c.isDigit = true ∨ c = '_' ∨ Delimits c) :
    c.toLower ∉ ['x', 'o', 'b'] := by
  have plain : ['0', '1', '2', '3', '4', '5', '6', '7', '8', '9', '_', '.', '[', ']', '(', ')', ',',
      ':', '=', ' ', '\n'].all (fun c => decide (c.toLower ∉ ['x', 'o', 'b'])) = true := by
    decide
  have known : c ∈ ['0', '1', '2', '3', '4', '5', '6', '7', '8', '9', '_', '.', '[', ']', '(', ')',
      ',', ':', '=', ' ', '\n'] := by
    rcases inside with digit | rfl | delimits
    · exact List.mem_append_left _ (digit_known digit)
    · decide
    · exact List.mem_append_right ['0', '1', '2', '3', '4', '5', '6', '7', '8', '9', '_'] delimits
  simpa using List.all_eq_true.mp plain c known

theorem delimits_no_number {c : Char} (delimits : Delimits c) :
    c.isDigit = false ∧ c ≠ '_' ∧ c ≠ 'e' ∧ c ≠ 'E' ∧ c ∉ ['L', 'l', 'j', 'J'] := by
  have plain : ['.', '[', ']', '(', ')', ',', ':', '=', ' ', '\n'].all (fun c =>
      !c.isDigit && c != '_' && c != 'e' && c != 'E' && decide (c ∉ ['L', 'l', 'j', 'J'])) = true := by
    decide
  simpa [and_assoc] using List.all_eq_true.mp plain c delimits

theorem groups_apart {rest : List Char} (apart : Apart rest) : Numeral.groupsLength rest = 0 := by
  cases rest with
  | nil => rfl
  | cons c rest => exact groups_none (delimits_no_number (apart c rfl)).1 rest

theorem groups_step {c : Char} (digit : c.isDigit = true) {text : List Char}
    (other : '_' ∉ text.head?) :
    Numeral.groupsLength (c :: text) = Numeral.groupsLength text + 1 := by
  cases text with
  | nil => simp [Numeral.groupsLength, digit]
  | cons d text =>
    have line : d ≠ '_' := fun same => other (by rw [same]; rfl)
    rw [Numeral.groupsLength]
    · rw [if_pos digit]
    · rintro rest ⟨rfl, -⟩
      exact line rfl

theorem groups_integer {digits : List Char} (integer : IsInteger digits) {rest : List Char}
    (apart : Apart rest) : Numeral.groupsLength (digits ++ rest) = digits.length := by
  have begins {more : List Char} (later : IsInteger more) : '_' ∉ (more ++ rest).head? := by
    obtain ⟨c, text, rfl, digit⟩ := later.begins
    rintro ⟨⟩
    exact absurd digit (by decide)
  induction integer with
  | digit digit =>
    have other : '_' ∉ rest.head? := fun member => (delimits_no_number (apart _ member)).2.1 rfl
    rw [List.singleton_append, groups_step digit other, groups_apart apart]
    rfl
  | more digit later ih => rw [List.cons_append, groups_step digit (begins later), ih, List.length_cons]
  | @grouped c digits digit later ih =>
    obtain ⟨d, text, rfl, next⟩ := later.begins
    simp only [List.cons_append, List.length_cons] at ih ⊢
    rw [Numeral.groupsLength, if_pos digit, if_pos next, ih]

theorem unbased_integer {digits : List Char} (integer : IsInteger digits) {rest : List Char}
    (apart : Apart rest) : Numeral.basedLength? (digits ++ rest) = none := by
  have second : ∀ c base text, digits ++ rest = c :: base :: text →
      base.isDigit = true ∨ base = '_' ∨ Delimits base := by
    intro c base text split
    cases integer with
    | digit _ =>
      rw [List.singleton_append, List.cons.injEq] at split
      exact .inr (.inr (apart base (by rw [split.2]; rfl)))
    | more _ later =>
      obtain ⟨d, more, rfl, digit⟩ := later.begins
      simp only [List.cons_append, List.cons.injEq] at split
      exact .inl (split.2.1 ▸ digit)
    | grouped _ _ =>
      simp only [List.cons_append, List.cons.injEq] at split
      exact .inr (.inl split.2.1.symm)
  unfold Numeral.basedLength?
  split
  · rename_i base text split
    rw [if_neg (by simpa using unbased (second _ _ _ split))]
  · rfl

theorem number_integer {digits : List Char} (integer : IsInteger digits) {rest : List Char}
    (parted : Parted rest) : Numeral.scan? (digits ++ rest) = some (false, digits.length) := by
  have whole := groups_integer integer parted.apart
  have based := unbased_integer integer parted.apart
  have behind : (digits ++ rest).drop digits.length = rest := List.drop_left
  have present : digits.length ≠ 0 := by
    obtain ⟨c, more, rfl, -⟩ := integer.begins
    simp
  generalize digits ++ rest = text at whole based behind
  generalize digits.length = size at whole behind present
  -- Neither a point nor a power nor a letter of another number follows.
  cases rest with
  | nil =>
    simp [Numeral.scan?, based, whole, behind, present, Numeral.exponentLength, Numeral.endingLength]
  | cons d rest =>
    obtain ⟨-, -, lower, upper, letters⟩ := delimits_no_number (parted.apart d rfl)
    have point : d ≠ '.' := fun same => parted.pointless (by rw [same]; rfl)
    have power : Numeral.exponentLength (d :: rest) = 0 := by
      simp [Numeral.exponentLength, lower, upper]
    have ending : Numeral.endingLength ['L', 'l', 'j', 'J'] (d :: rest) = 0 := by
      rw [Numeral.endingLength, if_neg (by simpa using letters)]
    simp [Numeral.scan?, based, whole, behind, present, point, power, ending]

theorem shows_integer {digits : List Char} (integer : IsInteger digits) {rest : List Char}
    (parted : Parted rest) :
    Shows (digits ++ rest) (.integer (String.ofList digits)) rest := by
  have scanned := number_integer integer parted
  obtain ⟨c, more, rfl, digit⟩ := integer.begins
  obtain ⟨start, quote, flag, solid⟩ := digit_unquoted digit
  refine ⟨?_, by simp, _, ?_, List.drop_left⟩
  · rintro d ⟨⟩
    exact solid
  · have unquoted : Quote.scan? (c :: more ++ rest) = none := by
      apply no_quote
      rw [List.cons_append, List.dropWhile_cons_of_neg (by simp [flag])]
      rintro d ⟨⟩
      exact quote
    rw [List.cons_append] at scanned unquoted ⊢
    simp only [Lexeme.scan, unquoted, start, scanned]
    simp

def simpleQuote (delimiter : Char) : Quote :=
  ⟨delimiter, false, false, false, false, false⟩

theorem delimiter_plain {delimiter : Char} (known : delimiter ∈ ['\'', '"']) :
    Quote.isFlag delimiter = false ∧ Solid delimiter ∧ delimiter ≠ '\x00' ∧ delimiter ≠ '\\' := by
  simp only [List.mem_cons, List.not_mem_nil, or_false] at known
  rcases known with rfl | rfl <;> decide

-- No third delimiter follows the first two, so that they do not begin a longer quote.
theorem no_triple {delimiter : Char} (known : delimiter ∈ ['\'', '"']) {content : List Char}
    (plain : IsContent delimiter content) {rest : List Char} (apart : Apart rest) (text : List Char) :
    content ++ delimiter :: rest ≠ delimiter :: delimiter :: text := by
  intro same
  cases content with
  | nil =>
    rw [List.nil_append, List.cons.injEq] at same
    have unquoted := (delimits_plain (apart delimiter (by rw [same.2]; rfl))).2.1
    simp only [List.mem_cons, List.not_mem_nil, or_false] at known
    rcases known with rfl | rfl <;> exact absurd unquoted (by decide)
  | cons c content =>
    rw [List.cons_append, List.cons.injEq] at same
    exact plain c List.mem_cons_self (by rw [same.1]; exact List.mem_cons_self)

theorem shows_quote {delimiter : Char} (known : delimiter ∈ ['\'', '"']) {content : List Char}
    (plain : IsContent delimiter content) {rest : List Char} (apart : Apart rest) :
    Shows (delimiter :: (content ++ delimiter :: rest)) (.quote (simpleQuote delimiter))
      (content ++ delimiter :: rest) := by
  obtain ⟨flag, solid, -⟩ := delimiter_plain known
  have single := no_triple known plain apart
  generalize content ++ delimiter :: rest = more at single
  have opens : Quote.ofDelimiter? [] (delimiter :: more) = some (simpleQuote delimiter, 1) := by
    simp only [List.mem_cons, List.not_mem_nil, or_false] at known
    unfold Quote.ofDelimiter?
    rcases known with rfl | rfl
    · split <;> simp_all [simpleQuote]
    · split <;> simp_all [simpleQuote]
  have scanned : Quote.scan? (delimiter :: more) = some (simpleQuote delimiter, 1) := by
    simp [Quote.scan?, flag, opens]
  refine ⟨?_, by simp, 1, ?_, rfl⟩
  · rintro d ⟨⟩
    exact solid
  · rw [Lexeme.scan, scanned]

theorem content_scanned {delimiter : Char} (known : delimiter ∈ ['\'', '"']) {content : List Char}
    (plain : IsContent delimiter content) (rest : List Char) (fed : Bool) (length : Nat) :
    Quoted.scan (simpleQuote delimiter) fed 0 length (content ++ delimiter :: rest) =
      some (.close, length + content.length + 1, rest) := by
  obtain ⟨-, -, null, escape⟩ := delimiter_plain known
  induction content generalizing fed length with
  | nil => simp [Quoted.scan, simpleQuote, null, escape]
  | cons c content ih =>
    obtain ⟨first, later⟩ := List.forall_mem_cons.mp plain
    simp only [List.mem_cons, List.not_mem_nil, or_false, not_or] at first
    obtain ⟨inside, escape, broken, null⟩ := first
    have next := ih later true (length + 1)
    rw [List.cons_append, List.length_cons]
    unfold Quoted.scan
    simp only [simpleQuote] at next ⊢
    simp [inside, escape, broken, null, next]
    omega

theorem quote_scanned {here : List Char} {quote : Quote} {length : Nat}
    (scanned : Lexeme.scan here = (.quote quote, length)) :
    Quote.scan? here = some (quote, length) := by
  cases here with
  | nil => simp [Lexeme.scan] at scanned
  | cons c text =>
    rw [Lexeme.scan] at scanned
    split at scanned
    · rename_i found
      cases scanned
      exact found
    · split at scanned
      · simp at scanned
      · split at scanned
        · rename_i fractional _ _
          cases fractional <;> simp at scanned
        · split at scanned <;> simp at scanned

theorem delimiter_spelled {flags text : List Char} {quote : Quote} {width : Nat}
    (found : Quote.ofDelimiter? flags text = some (quote, width)) :
    quote.marked = !flags.isEmpty ∧
      (quote.triple = false → width = 1 ∧ text.take 1 = [quote.delimiter]) := by
  unfold Quote.ofDelimiter? at found
  split at found <;> cases found <;> simp

theorem quote_spelled {here : List Char} {delimiter : Char} {length : Nat}
    (scanned : Lexeme.scan here = (.quote (simpleQuote delimiter), length)) :
    length = 1 ∧ here.take 1 = [delimiter] := by
  obtain ⟨⟨quote, width⟩, found, same⟩ := Option.map_eq_some_iff.mp (quote_scanned scanned)
  cases same
  obtain ⟨marked, single⟩ := delimiter_spelled found
  obtain ⟨one, spelled⟩ := single rfl
  have none : here.takeWhile Quote.isFlag = [] := by simpa [simpleQuote] using marked
  rw [none] at spelled ⊢
  exact ⟨by rw [one]; rfl, by simpa [simpleQuote] using spelled⟩

theorem quote_ahead {cursor : Cursor} {place : Place} {delimiter : Char} {level : Option Nat}
    {rest : List Char} (lies : Lies cursor place)
    (meets : Meets place.text level (.quote (simpleQuote delimiter)) rest) :
    cursor.here = delimiter :: rest ∧ cursor.rest = rest ∧ cursor.stop = cursor.start + 1 := by
  obtain ⟨offset, rfl⟩ := lies
  obtain ⟨one, spelled⟩ := quote_spelled (Prod.ext meets.lexeme rfl)
  have behind : (Gap.ofText place.text).2.drop 1 = rest := one ▸ meets.rest
  refine ⟨?_, meets.rest, congrArg (_ + ·) one⟩
  show (Gap.ofText place.text).2 = _
  rw [← List.take_append_drop 1 (Gap.ofText place.text).2, spelled, behind]
  rfl

theorem shows_ellipsis (rest : List Char) :
    Shows ('.' :: '.' :: '.' :: rest) (.mark .ellipsis) rest := by
  have unquoted : Quote.scan? ('.' :: '.' :: '.' :: rest) = none := by
    apply no_quote
    rintro d ⟨⟩
    rfl
  have groups (text : List Char) : Numeral.groupsLength ('.' :: text) = 0 := groups_none rfl text
  have unnumbered : Numeral.scan? ('.' :: '.' :: '.' :: rest) = none := by
    simp [Numeral.scan?, Numeral.basedLength?, groups]
  refine shows_mark ['.', '.', '.'] rfl (by simp; decide) (by simp) ?_
  have found : Mark.scan? ('.' :: '.' :: '.' :: rest) = some (.ellipsis, 3) := rfl
  have start : isIdentifierStart '.' = false := by decide
  simp only [Lexeme.scan, unquoted, start, unnumbered, found]
  rfl

-- A point begins a number, a member or the ellipsis.
theorem point_scanned (text : List Char) :
    (∃ number, (Lexeme.scan ('.' :: text)).1 = .integer number) ∨
      (∃ number, (Lexeme.scan ('.' :: text)).1 = .float number) ∨
      (Lexeme.scan ('.' :: text)).1 = .mark .dot ∨
      (Lexeme.scan ('.' :: text)).1 = .mark .ellipsis := by
  have unquoted : Quote.scan? ('.' :: text) = none := by
    apply no_quote
    rintro d ⟨⟩
    rfl
  have start : isIdentifierStart '.' = false := by decide
  simp only [Lexeme.scan, unquoted, start]
  cases number : Numeral.scan? ('.' :: text) with
  | some found =>
    obtain ⟨fractional, length⟩ := found
    cases fractional <;> simp
  | none =>
    by_cases three : ['.', '.'].isPrefixOf text = true
    · simp [Mark.scan?, Mark.spellings, three]
    · simp [Mark.scan?, Mark.spellings, three]

end SourceDiagram.Syntax
