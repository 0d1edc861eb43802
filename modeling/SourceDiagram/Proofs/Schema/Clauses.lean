import SourceDiagram.Proofs.Schema.Reading
import SourceDiagram.Schema.Session

set_option autoImplicit false

namespace SourceDiagram.Schema

open SourceDiagram.Model
open SourceDiagram.Text

-- The number of open parentheses after a text; there is none if a parenthesis closes nothing or a
-- comma stands outside every parenthesis.
def level? (depth : Nat) : List Char → Option Nat
  | [] => some depth
  | c :: cs =>
    if depth = 0 && (c = ')' || c = ',') then none else level? (depthAfter depth c) cs

def Balanced (text : List Char) : Prop :=
  level? 0 text = some 0

def Trimmed (text : List Char) : Prop :=
  (∀ c ∈ text.head?, isBlank c = false) ∧ ∀ c ∈ text.getLast?, isBlank c = false

structure Tail (text : List Char) : Prop where
  trimmed : Trimmed text
  balanced : Balanced text
  unclosed : ¬ Closes text

structure ColumnName (name : List Char) : Prop where
  present : name ≠ []
  solid : ∀ c ∈ name, isBlank c = false
  unmarked : ∀ c ∈ name, c ∉ [',', '(', ')', '"']
  free : isConstraintWord name = false

inductive Item where
  | column (name spec : List Char)
  | constraint

def Item.column? : Item → Option Column
  | .column name spec => some ⟨String.ofList name, String.ofList spec⟩
  | .constraint => none

inductive ItemText : Item → List Char → Prop where
  | bare {name gap spec : List Char} : ColumnName name → Gap gap → Tail spec →
      ItemText (.column name spec) (name ++ (gap ++ spec))
  | quoted {name gap spec : List Char} : ColumnName name → Gap gap → Tail spec →
      ItemText (.column name spec) ('"' :: (name ++ ['"']) ++ (gap ++ spec))
  | constraint {word gap rest : List Char} : isConstraintWord word = true → Gap gap → Tail rest →
      ItemText .constraint (word ++ (gap ++ rest))

theorem clauses_nonempty (depth : Nat) (cs : List Char) : clausesFrom depth cs ≠ [] := by
  cases cs with
  | nil => simp [clausesFrom]
  | cons c cs =>
    rw [clausesFrom]
    split
    · simp
    · split <;> simp

theorem clauses_comma (rest : List Char) :
    clausesFrom 0 (',' :: rest) = [] :: clausesFrom 0 rest := by
  simp [clausesFrom]

section

variable {depth : Nat} {c : Char} (cs : List Char) (inside : ¬ (c = ',' ∧ depth = 0))

include inside

theorem clauses_inside :
    clausesFrom depth (c :: cs) = (clausesFrom (depthAfter depth c) cs).modifyHead (c :: ·) := by
  have comma : ¬ (c = ',' && depth = 0) = true := by
    simpa using inside
  rw [clausesFrom, if_neg comma]
  cases found : clausesFrom (depthAfter depth c) cs with
  | nil => exact absurd found (clauses_nonempty _ cs)
  | cons clause later => rfl

theorem whole_inside :
    clausesFrom depth (c :: cs) = [c :: cs] ↔ clausesFrom (depthAfter depth c) cs = [cs] := by
  obtain ⟨clause, later, found⟩ := List.exists_cons_of_ne_nil
    (clauses_nonempty (depthAfter depth c) cs)
  rw [clauses_inside cs inside, found]
  simp

end

theorem whole_append {depth : Nat} {text : List Char} (whole : clausesFrom depth text = [text])
    (rest : List Char) :
    clausesFrom depth (text ++ rest) =
      (clausesFrom (text.foldl depthAfter depth) rest).modifyHead (text ++ ·) := by
  induction text generalizing depth with
  | nil =>
    rw [List.nil_append, List.foldl_nil]
    cases clausesFrom depth rest <;> rfl
  | cons c cs ih =>
    by_cases comma : c = ',' ∧ depth = 0
    · obtain ⟨rfl, rfl⟩ := comma
      rw [clauses_comma] at whole
      cases whole
    · rw [whole_inside cs comma] at whole
      rw [List.cons_append, clauses_inside _ comma, ih whole, List.modifyHead_modifyHead]
      rfl

theorem clauses_concat {depth : Nat} {front : List Char}
    (closed : front.foldl depthAfter depth = 0) (back : List Char) :
    clausesFrom depth (front ++ ',' :: back) = clausesFrom depth front ++ splitClauses back := by
  induction front generalizing depth with
  | nil =>
    obtain rfl : depth = 0 := closed
    exact clauses_comma back
  | cons c cs ih =>
    rw [List.foldl_cons] at closed
    rw [List.cons_append]
    by_cases comma : c = ',' ∧ depth = 0
    · obtain ⟨rfl, rfl⟩ := comma
      have kept : depthAfter 0 ',' = 0 := rfl
      rw [kept] at closed
      rw [clauses_comma, clauses_comma, ih closed, List.cons_append]
    · obtain ⟨clause, later, found⟩ := List.exists_cons_of_ne_nil
        (clauses_nonempty (depthAfter depth c) cs)
      rw [clauses_inside _ comma, clauses_inside cs comma, ih closed, found]
      rfl

theorem level_whole {depth after : Nat} {text : List Char} (level : level? depth text = some after) :
    clausesFrom depth text = [text] ∧ text.foldl depthAfter depth = after := by
  induction text generalizing depth with
  | nil =>
    cases level
    exact ⟨by rw [clausesFrom], rfl⟩
  | cons c cs ih =>
    rw [level?] at level
    by_cases outside : (depth = 0 && (c = ')' || c = ',')) = true
    · rw [if_pos outside] at level
      cases level
    · rw [if_neg outside] at level
      have comma : ¬ (c = ',' ∧ depth = 0) := by
        rintro ⟨rfl, rfl⟩
        exact outside rfl
      rw [whole_inside cs comma]
      exact ih level

theorem clauses_append {depth after : Nat} {text : List Char} (level : level? depth text = some after)
    (rest : List Char) :
    clausesFrom depth (text ++ rest) = (clausesFrom after rest).modifyHead (text ++ ·) := by
  obtain ⟨whole, rfl⟩ := level_whole level
  exact whole_append whole rest

theorem level_append {depth after : Nat} {front : List Char}
    (level : level? depth front = some after) (back : List Char) :
    level? depth (front ++ back) = level? after back := by
  induction front generalizing depth with
  | nil =>
    cases level
    rfl
  | cons c cs ih =>
    rw [level?] at level
    rw [List.cons_append, level?]
    split at level
    · cases level
    · rename_i inside
      rw [if_neg inside]
      exact ih level

theorem balanced_append {front back : List Char} (first : Balanced front) (second : Balanced back) :
    Balanced (front ++ back) :=
  (level_append first back).trans second

theorem balanced_plain {text : List Char} (plain : ∀ c ∈ text, c ∉ [',', '(', ')']) :
    Balanced text := by
  induction text with
  | nil => rfl
  | cons c cs ih =>
    obtain ⟨first, later⟩ := List.forall_mem_cons.mp plain
    simp only [List.mem_cons, List.not_mem_nil, or_false, not_or] at first
    have outside : ¬ ((decide (0 = 0) && (decide (c = ')') || decide (c = ','))) = true) := by
      simp [first.1, first.2.2]
    rw [Balanced, level?, if_neg outside, depthAfter, if_neg first.2.1, if_neg first.2.2]
    exact ih later

theorem blank_unmarked {c : Char} (blank : isBlank c = true) : c ∉ [',', '(', ')', '"'] := by
  intro member
  have solid : ∀ mark ∈ [',', '(', ')', '"'], isBlank mark = false := by
    simp only [List.forall_mem_cons]
    exact ⟨rfl, rfl, rfl, rfl, List.forall_mem_nil _⟩
  rw [solid c member] at blank
  cases blank

theorem balanced_blank {text : List Char} (blank : Blank text) : Balanced text :=
  balanced_plain fun c member marked =>
    blank_unmarked (blank c member) (List.mem_append_left ['"'] marked)

theorem head_of_append {front back : List Char} (present : front ≠ []) :
    (front ++ back).head? = front.head? := by
  cases front with
  | nil => contradiction
  | cons c front => rfl

theorem last_of_append {front back : List Char} (present : back ≠ []) :
    (front ++ back).getLast? = back.getLast? := by
  rw [List.getLast?_append, Option.or_of_isSome]
  simpa using present

theorem trim_line {before word gap tail after : List Char} (front : Blank before)
    (present : word ≠ []) (solid : ∀ c ∈ word, isBlank c = false) (space : Blank gap)
    (trimmed : Trimmed tail) (back : Blank after) :
    trim (before ++ (word ++ (gap ++ tail) ++ after)) =
      word ++ if tail = [] then [] else gap ++ tail := by
  have first : ∀ c ∈ word.head?, isBlank c = false := by
    intro c member
    exact solid c (List.mem_of_head? member)
  by_cases empty : tail = []
  · subst empty
    have blank : Blank (gap ++ after) := by
      intro c member
      exact (List.mem_append.mp member).elim (space c) (back c)
    have last : ∀ c ∈ word.getLast?, isBlank c = false := by
      intro c member
      exact solid c (List.mem_of_getLast? member)
    simpa [trim] using trim_both_append before _ front blank first last
  · rw [if_neg empty]
    apply trim_both_append _ _ front back
    · rw [head_of_append present]
      exact first
    · rw [← List.append_assoc, last_of_append empty]
      exact trimmed.2

theorem read_clause {before word gap tail after : List Char} (front : Blank before)
    (present : word ≠ []) (solid : ∀ c ∈ word, isBlank c = false) (space : Blank gap)
    (parted : tail = [] ∨ gap ≠ []) (trimmed : Trimmed tail) (back : Blank after) :
    readColumn? (before ++ (word ++ (gap ++ tail) ++ after)) =
      if isConstraintWord (trimBoth (· == '"') word) then none
      else some ⟨String.ofList (trimBoth (· == '"') word), String.ofList tail⟩ := by
  have line := trim_line front present solid space trimmed back
  have behind : ∃ more, (if tail = [] then [] else gap ++ tail) = more ∧
      (∀ c ∈ more.head?, isBlank c = true) ∧ trim (more.drop 1) = tail := by
    by_cases empty : tail = []
    · subst empty
      exact ⟨[], if_pos rfl, by simp, rfl⟩
    · obtain ⟨c, gap', rfl⟩ := List.exists_cons_of_ne_nil (parted.resolve_left empty)
      have blank : Blank gap' := fun d member => space d (List.mem_cons_of_mem c member)
      refine ⟨c :: gap' ++ tail, if_neg empty, ?_, ?_⟩
      · rintro d ⟨⟩
        exact space c List.mem_cons_self
      · simpa [trim] using trim_both_append gap' [] blank (by simp) trimmed.1 trimmed.2
  obtain ⟨more, chosen, spaced, rest⟩ := behind
  rw [chosen] at line
  obtain ⟨head, left⟩ := word_split solid spaced
  have nonempty : (word ++ more).isEmpty = false := by simp [present]
  simp only [readColumn?, line, clauseHead, clauseRest, head, left, rest, nonempty, Bool.false_or]

def isForeign (c : Char) : Bool :=
  (upperAscii c).any fun d => constraintWords.all fun keyword => !keyword.toList.contains d

theorem mark_foreign {c : Char} (mark : c ∈ [',', '(', ')', '"']) : isForeign c = true := by
  have marks : [',', '(', ')', '"'].all isForeign = true := by decide
  exact List.all_eq_true.mp marks c mark

theorem blank_foreign {c : Char} (blank : isBlank c = true) : isForeign c = true :=
  of_blank (fun c => isForeign c = true) (by decide +kernel) blank

theorem constraint_letters {word : List Char} (constraint : isConstraintWord word = true) :
    word ≠ [] ∧ ∀ c ∈ word, isBlank c = false ∧ c ∉ [',', '(', ')', '"'] := by
  obtain ⟨keyword, listed, same⟩ := List.any_eq_true.mp constraint
  rw [beq_iff_eq] at same
  constructor
  · rintro rfl
    revert same
    revert keyword
    decide
  · intro c member
    have native : isForeign c ≠ true := by
      intro foreign
      obtain ⟨d, upper, outside⟩ := List.any_eq_true.mp foreign
      have letter : d ∈ keyword.toList := by
        rw [← same]
        exact List.mem_flatMap.mpr ⟨c, member, upper⟩
      simpa [letter] using List.all_eq_true.mp outside keyword listed
    constructor
    · rw [← Bool.not_eq_true]
      exact fun blank => native (blank_foreign blank)
    · exact fun mark => native (mark_foreign mark)

theorem trim_constraint {word : List Char} (constraint : isConstraintWord word = true) :
    trimBoth (· == '"') word = word := by
  apply trim_both_none
  intro c member
  simpa using fun same => ((constraint_letters constraint).2 c member).2 (by simp [same])

theorem trim_quotes {name : List Char} (named : ColumnName name) :
    trimBoth (· == '"') name = name ∧ trimBoth (· == '"') ('"' :: (name ++ ['"'])) = name := by
  have plain : ∀ c ∈ name, (c == '"') = false := by
    intro c member
    simpa using fun same => named.unmarked c member (by simp [same])
  exact ⟨trim_both_none plain, trim_both_between plain⟩

theorem item_reads {item : Item} {text before after : List Char} (written : ItemText item text)
    (front : Blank before) (back : Blank after) :
    readColumn? (before ++ (text ++ after)) = item.column? := by
  cases written with
  | bare named space tail =>
    rw [read_clause front named.present named.solid space.2 (.inr space.1) tail.trimmed back,
      (trim_quotes named).1, named.free]
    rfl
  | @quoted name gap spec named space tail =>
    have solid : ∀ c ∈ '"' :: (name ++ ['"']), isBlank c = false := by
      have quote : isBlank '"' = false := by decide
      intro c member
      rcases List.mem_cons.mp member with rfl | member
      · exact quote
      · rcases List.mem_append.mp member with inside | last
        · exact named.solid c inside
        · rw [List.mem_singleton.mp last]
          exact quote
    rw [read_clause front (by simp) solid space.2 (.inr space.1) tail.trimmed back,
      (trim_quotes named).2, named.free]
    rfl
  | @constraint word gap rest constraint space tail =>
    obtain ⟨present, letters⟩ := constraint_letters constraint
    rw [read_clause front present (fun c member => (letters c member).1) space.2 (.inr space.1)
      tail.trimmed back, trim_constraint constraint, constraint]
    rfl

theorem item_balanced {item : Item} {text : List Char} (written : ItemText item text) :
    Balanced text := by
  have unmarked : ∀ c : Char, c ∉ [',', '(', ')', '"'] → c ∉ [',', '(', ')'] :=
    fun c free marked => free (List.mem_append_left ['"'] marked)
  cases written with
  | bare named space tail =>
    refine balanced_append (balanced_plain fun c member => unmarked c (named.unmarked c member)) ?_
    exact balanced_append (balanced_blank space.2) tail.balanced
  | @quoted name gap spec named space tail =>
    have quote : Balanced ['"'] := rfl
    have plain := balanced_plain fun c member => unmarked c (named.unmarked c member)
    have enclosed : Balanced (['"'] ++ (name ++ ['"'])) :=
      balanced_append quote (balanced_append plain quote)
    exact balanced_append enclosed (balanced_append (balanced_blank space.2) tail.balanced)
  | constraint constraint space tail =>
    refine balanced_append (balanced_plain fun c member =>
      unmarked c ((constraint_letters constraint).2 c member).2) ?_
    exact balanced_append (balanced_blank space.2) tail.balanced

end SourceDiagram.Schema
