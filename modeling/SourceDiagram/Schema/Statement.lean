import SourceDiagram.Text.Characters

set_option autoImplicit false

namespace SourceDiagram.Schema

open SourceDiagram.Text

structure Statement where
  schema : Option (List Char)
  table : List Char
  body : List Char
deriving DecidableEq, Repr

-- Whether a character stands for a lower-case letter of a keyword, in either case. The long s is
-- a small s too.
def standsFor (letter c : Char) : Bool :=
  c.toLower == letter || (letter == 's' && c == 'ſ')

def afterKeyword? : List Char → List Char → Option (List Char)
  | [], cs => some cs
  | _ :: _, [] => none
  | letter :: letters, c :: cs => if standsFor letter c then afterKeyword? letters cs else none

def afterBlanks (cs : List Char) : List Char :=
  cs.dropWhile isBlank

def afterGap? : List Char → Option (List Char)
  | c :: cs => if isBlank c then some (afterBlanks cs) else none
  | [] => none

def afterMark? (mark : Char) : List Char → Option (List Char)
  | c :: cs => if c = mark then some cs else none
  | [] => none

def afterWord? (keyword : String) (cs : List Char) : Option (List Char) := do
  afterGap? (← afterKeyword? keyword.toList cs)

def afterCondition (cs : List Char) : List Char :=
  (do afterWord? "exists" (← afterWord? "not" (← afterWord? "if" cs))).getD cs

def readName? (cs : List Char) : Option (List Char × List Char) :=
  match afterMark? '"' cs with
  | some quoted => do
    let name := quoted.takeWhile (· != '"')
    let rest ← afterMark? '"' (quoted.dropWhile (· != '"'))
    if name.isEmpty then none else some (name, rest)
  | none =>
    let name := cs.takeWhile isWordChar
    if name.isEmpty then none else some (name, cs.dropWhile isWordChar)

def readQualified? (cs : List Char) : Option (Option (List Char) × List Char × List Char) := do
  let (first, rest) ← readName? cs
  match afterMark? '.' (afterBlanks rest) with
  | none => return (none, first, afterBlanks rest)
  | some rest =>
    let (second, rest) ← readName? (afterBlanks rest)
    return (some first, second, afterBlanks rest)

def afterBody? (cs : List Char) : Option (List Char) := do
  afterMark? ';' (afterBlanks (← afterMark? ')' cs))

def readBody? : List Char → Option (List Char × List Char)
  | [] => none
  | c :: cs =>
    match afterBody? (c :: cs) with
    | some rest => some ([], rest)
    | none => (readBody? cs).map fun (body, rest) => (c :: body, rest)

def readHead? (cs : List Char) : Option (Option (List Char) × List Char × List Char) := do
  let cs ← afterWord? "create" cs
  let cs ← afterWord? "table" cs
  let (schema, table, cs) ← readQualified? (afterCondition cs)
  let cs ← afterMark? '(' cs
  return (schema, table, cs)

def readStatement? (cs : List Char) : Option (Statement × List Char) := do
  let (schema, table, cs) ← readHead? cs
  let (body, cs) ← readBody? cs
  return (⟨schema, table, body⟩, cs)

section Shorter

theorem length_after_keyword {keyword cs rest : List Char}
    (found : afterKeyword? keyword cs = some rest) : rest.length ≤ cs.length := by
  induction keyword generalizing cs with
  | nil => simp_all [afterKeyword?]
  | cons letter letters ih =>
    cases cs with
    | nil => simp [afterKeyword?] at found
    | cons c cs =>
      rw [afterKeyword?] at found
      split at found
      · have := ih found
        simp only [List.length_cons]
        omega
      · cases found

theorem length_after_blanks (cs : List Char) : (afterBlanks cs).length ≤ cs.length :=
  (List.dropWhile_sublist _).length_le

theorem length_after_gap {cs rest : List Char} (found : afterGap? cs = some rest) :
    rest.length < cs.length := by
  cases cs with
  | nil => cases found
  | cons c cs =>
    rw [afterGap?] at found
    split at found
    · cases found
      exact Nat.lt_succ_of_le (length_after_blanks cs)
    · cases found

theorem length_after_mark {mark : Char} {cs rest : List Char}
    (found : afterMark? mark cs = some rest) : rest.length < cs.length := by
  cases cs with
  | nil => cases found
  | cons c cs =>
    rw [afterMark?] at found
    split at found
    · cases found
      exact Nat.lt_succ_self _
    · cases found

theorem length_after_word {keyword : String} {cs rest : List Char}
    (found : afterWord? keyword cs = some rest) : rest.length < cs.length := by
  obtain ⟨between, word, gap⟩ := Option.bind_eq_some_iff.mp found
  have := length_after_keyword word
  have := length_after_gap gap
  omega

theorem length_after_condition (cs : List Char) :
    (afterCondition cs).length ≤ cs.length := by
  rw [afterCondition]
  generalize found : Bind.bind (m := Option) _ _ = result
  cases result with
  | none => exact Nat.le_refl _
  | some rest =>
    obtain ⟨first, condition, found⟩ := Option.bind_eq_some_iff.mp found
    obtain ⟨second, negation, found⟩ := Option.bind_eq_some_iff.mp found
    have := length_after_word condition
    have := length_after_word negation
    have := length_after_word found
    simp only [Option.getD_some]
    omega

theorem length_read_name {cs name rest : List Char} (found : readName? cs = some (name, rest)) :
    rest.length ≤ cs.length := by
  rw [readName?] at found
  split at found
  · rename_i quoted opened
    obtain ⟨after, closed, found⟩ := Option.bind_eq_some_iff.mp found
    split at found
    · cases found
    · cases found
      have := length_after_mark opened
      have := length_after_mark closed
      have := (List.dropWhile_sublist (l := quoted) (· != '"')).length_le
      omega
  · dsimp only at found
    split at found
    · cases found
    · cases found
      exact (List.dropWhile_sublist _).length_le

theorem length_read_qualified {cs table rest : List Char} {schema : Option (List Char)}
    (found : readQualified? cs = some (schema, table, rest)) : rest.length ≤ cs.length := by
  obtain ⟨⟨first, after⟩, named, found⟩ := Option.bind_eq_some_iff.mp found
  have := length_read_name named
  have := length_after_blanks after
  dsimp only at found
  split at found
  · cases found
    omega
  · rename_i dotted dot
    obtain ⟨⟨second, last⟩, named, found⟩ := Option.bind_eq_some_iff.mp found
    cases found
    dsimp only
    have := length_read_name named
    have := length_after_mark dot
    have := length_after_blanks dotted
    have := length_after_blanks last
    omega

theorem length_after_body {cs rest : List Char} (found : afterBody? cs = some rest) :
    rest.length < cs.length := by
  obtain ⟨between, closed, ended⟩ := Option.bind_eq_some_iff.mp found
  have := length_after_mark closed
  have := length_after_blanks between
  have := length_after_mark ended
  omega

theorem length_read_body {cs body rest : List Char} (found : readBody? cs = some (body, rest)) :
    rest.length < cs.length := by
  induction cs generalizing body with
  | nil => cases found
  | cons c cs ih =>
    rw [readBody?] at found
    split at found
    · rename_i ended
      cases found
      exact length_after_body ended
    · obtain ⟨⟨inner, after⟩, later, same⟩ := Option.map_eq_some_iff.mp found
      cases same
      exact Nat.lt_succ_of_lt (ih later)

theorem length_read_head {cs table rest : List Char} {schema : Option (List Char)}
    (found : readHead? cs = some (schema, table, rest)) : rest.length < cs.length := by
  obtain ⟨first, create, found⟩ := Option.bind_eq_some_iff.mp found
  obtain ⟨second, table, found⟩ := Option.bind_eq_some_iff.mp found
  obtain ⟨⟨schema, name, third⟩, qualified, found⟩ := Option.bind_eq_some_iff.mp found
  obtain ⟨fourth, opened, found⟩ := Option.bind_eq_some_iff.mp found
  cases found
  have := length_after_word create
  have := length_after_word table
  have := length_after_condition second
  have := length_read_qualified qualified
  have := length_after_mark opened
  omega

theorem length_read_statement {cs rest : List Char} {statement : Statement}
    (found : readStatement? cs = some (statement, rest)) : rest.length < cs.length := by
  obtain ⟨⟨schema, table, between⟩, opened, found⟩ := Option.bind_eq_some_iff.mp found
  obtain ⟨⟨body, last⟩, ended, found⟩ := Option.bind_eq_some_iff.mp found
  cases found
  have := length_read_head opened
  have := length_read_body ended
  omega

end Shorter

def statements : List Char → List Statement
  | [] => []
  | c :: cs =>
    match found : readStatement? (c :: cs) with
    | some (statement, rest) =>
      have : rest.length < cs.length + 1 := length_read_statement found
      statement :: statements rest
    | none => statements cs
termination_by cs => cs.length

end SourceDiagram.Schema
