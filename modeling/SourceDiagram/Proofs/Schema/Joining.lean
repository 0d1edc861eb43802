import SourceDiagram.Proofs.Schema.Printed

set_option autoImplicit false

namespace SourceDiagram.Schema

open SourceDiagram.Model
open SourceDiagram.Text

def leftFrom (left : List Char) : List Char → List Char
  | [] => left
  | c :: cs =>
    match found : readStatement? (c :: cs) with
    | some (_, rest) =>
      have : rest.length < cs.length + 1 := length_read_statement found
      leftFrom rest rest
    | none => leftFrom left cs
termination_by cs => cs.length

def behindStatements (text : List Char) : List Char :=
  leftFrom text text

theorem left_found {left text rest : List Char} {statement : Statement}
    (found : readStatement? text = some (statement, rest)) :
    leftFrom left text = behindStatements rest := by
  cases text with
  | nil => cases found
  | cons c cs =>
    rw [leftFrom]
    split
    · rename_i read
      cases found.symm.trans read
      rfl
    · rename_i missing
      cases found.symm.trans missing

theorem left_missing {left cs : List Char} {c : Char} (missing : readStatement? (c :: cs) = none) :
    leftFrom left (c :: cs) = leftFrom left cs := by
  rw [leftFrom]
  split
  · rename_i read
    cases missing.symm.trans read
  · rfl

def Idle (gap text : List Char) : Prop :=
  ∀ before after, gap = before ++ after → after ≠ [] → ¬ Starts (after ++ text)

theorem missing_of_not_starts {text : List Char} (idle : ¬ Starts text) :
    readStatement? text = none := by
  rw [starts_iff] at idle
  simpa using idle

theorem Idle.head {c : Char} {gap text : List Char} (idle : Idle (c :: gap) text) :
    readStatement? (c :: (gap ++ text)) = none :=
  missing_of_not_starts (idle [] (c :: gap) rfl (List.cons_ne_nil _ _))

theorem Idle.tail {c : Char} {gap text : List Char} (idle : Idle (c :: gap) text) : Idle gap text :=
  fun before after split present => idle (c :: before) after (by rw [split]; rfl) present

theorem left_behind_gap {gap text : List Char} (idle : Idle gap text) (left : List Char) :
    leftFrom left (gap ++ text) = leftFrom left text := by
  induction gap with
  | nil => rfl
  | cons c gap ih => rw [List.cons_append, left_missing idle.head, ih idle.tail]

theorem statements_behind_gap {gap text : List Char} (idle : Idle gap text) :
    statements (gap ++ text) = statements text := by
  induction gap with
  | nil => rfl
  | cons c gap ih => rw [List.cons_append, statements_missing idle.head, ih idle.tail]

theorem behind_gap_and_segment {gap segment rest : List Char} {statement : Statement}
    (written : Segment statement segment) (idle : Idle gap (segment ++ rest)) :
    behindStatements (gap ++ (segment ++ rest)) = behindStatements rest := by
  rw [behindStatements, left_behind_gap idle, left_found (read_statement_complete written rest)]

theorem behind_none {text : List Char} (idle : ∀ before after, text = before ++ after → ¬ Starts after) :
    behindStatements text = text := by
  have gap : Idle text [] := by
    intro before after split _
    rw [List.append_nil]
    exact idle before after split
  have left := left_behind_gap gap text
  rw [List.append_nil, leftFrom] at left
  exact left

def Piece.text (piece : Piece) : List Char :=
  piece.gap ++ piece.segment

theorem Scans.behind {text : List Char} {pieces : List Piece} (scans : Scans text pieces) :
    text = pieces.flatMap Piece.text ++ behindStatements text := by
  induction scans with
  | done idle => rw [behind_none idle, List.flatMap_nil, List.nil_append]
  | @found piece rest later written idle _ ih =>
    rw [behind_gap_and_segment written idle, List.flatMap_cons, List.append_assoc, ← ih, Piece.text,
      List.append_assoc]

def Shielded (text : List Char) : Prop :=
  ∀ front back, text = front ++ ')' :: back → '"' ∈ front

theorem shielded_open {text : List Char} (open_ : ')' ∉ text) : Shielded text := by
  rintro front back rfl
  exact absurd (List.mem_append_right front List.mem_cons_self) open_

theorem Shielded.append {first second : List Char} (left : Shielded first)
    (right : Shielded second) : Shielded (first ++ second) := by
  intro front back split
  rcases List.append_eq_append_iff.mp split with ⟨more, before, behind⟩ | ⟨more, before, behind⟩
  · rw [before]
    exact List.mem_append_right _ (right more back behind)
  · cases more with
    | nil =>
      rw [List.append_nil] at before
      exact absurd (right [] back behind.symm) List.not_mem_nil
    | cons c more =>
      obtain ⟨rfl, -⟩ := List.cons.inj behind
      exact left front more before

theorem shielded_word {keyword : String} {word : List Char} (spelled : Spells keyword word)
    (open_ : ')' ∉ keyword.toList) : Shielded word := by
  have folded : foldCase ')' = ')' := by decide
  refine shielded_open fun member => open_ ?_
  rw [← folded]
  exact spells_mem spelled member

theorem shielded_blank {text : List Char} (blank : Blank text) : Shielded text :=
  shielded_open (blank_open blank)

theorem shielded_named {name text : List Char} (named : Named name text) : Shielded text := by
  cases named with
  | word _ letters =>
    have paren : isWordChar ')' = false := by decide
    refine shielded_open fun member => ?_
    rw [letters ')' member] at paren
    cases paren
  | quoted =>
    intro front back split
    cases front with
    | nil => cases split
    | cons c front =>
      obtain ⟨rfl, -⟩ := List.cons.inj split
      exact List.mem_cons_self

theorem shielded_condition {text : List Char} (condition : Condition text) : Shielded text := by
  cases condition with
  | absent => exact shielded_open List.not_mem_nil
  | present first firstGap second secondGap third thirdGap =>
    refine (shielded_word first (by decide)).append ((shielded_blank firstGap.2).append ?_)
    refine (shielded_word second (by decide)).append ((shielded_blank secondGap.2).append ?_)
    exact (shielded_word third (by decide)).append (shielded_blank thirdGap.2)

theorem shielded_qualified {schema : Option (List Char)} {table text : List Char}
    (qualified : Qualified schema table text) : Shielded text := by
  cases qualified with
  | plain named => exact shielded_named named
  | dotted first before after second =>
    have dot : Shielded ['.'] := shielded_open (by decide)
    have dotted := dot.append ((shielded_blank after).append (shielded_named second))
    exact (shielded_named first).append ((shielded_blank before).append dotted)

theorem shielded_head {schema : Option (List Char)} {table head : List Char}
    (written : Head schema table head) : Shielded head := by
  obtain ⟨create, firstGap, noun, secondGap, condition, qualified, between⟩ := written
  have opening : Shielded ['('] := shielded_open (by decide)
  refine (shielded_word create (by decide)).append ((shielded_blank firstGap.2).append ?_)
  refine (shielded_word noun (by decide)).append ((shielded_blank secondGap.2).append ?_)
  refine (shielded_condition condition).append ((shielded_qualified qualified).append ?_)
  exact (shielded_blank between).append opening

theorem head_before_paren {schema : Option (List Char)} {table head rest front back : List Char}
    (written : Head schema table head) (unquoted : '"' ∉ front)
    (same : head ++ rest = front ++ ')' :: back) : ∃ more, front = head ++ more := by
  rcases List.append_eq_append_iff.mp same with ⟨more, before, -⟩ | ⟨more, before, behind⟩
  · exact ⟨more, before⟩
  · cases more with
    | nil => exact ⟨[], by rw [before, List.append_nil, List.append_nil]⟩
    | cons c more =>
      obtain ⟨rfl, -⟩ := List.cons.inj behind
      exact absurd (shielded_head written front more before) unquoted

theorem body_read_where_closed {text : List Char} (closes : Closes text) :
    ∃ body rest, readBody? text = some (body, rest) := by
  induction text with
  | nil =>
    obtain ⟨before, gap, after, -, split⟩ := closes
    cases before <;> cases split
  | cons c cs ih =>
    rw [readBody?]
    cases ended : afterBody? (c :: cs) with
    | some rest => exact ⟨[], rest, rfl⟩
    | none =>
      obtain ⟨before, gap, after, blank, split⟩ := closes
      cases before with
      | nil => exact absurd (ended.symm.trans (after_body_iff.mpr ⟨gap, blank, split⟩)) (by simp)
      | cons d before =>
        obtain ⟨-, behind⟩ := List.cons.inj split
        obtain ⟨body, rest, read⟩ := ih ⟨before, gap, after, blank, behind⟩
        exact ⟨c :: body, rest, by rw [read]; rfl⟩

theorem starts_of_head {schema : Option (List Char)} {table head text : List Char}
    (written : Head schema table head) (closes : Closes text) : Starts (head ++ text) := by
  obtain ⟨body, rest, read⟩ := body_read_where_closed closes
  rw [starts_iff, readStatement?, read_head_complete written]
  simp [read]

-- In a text without quotes in which some body could end, no more statements begin when the text
-- goes on: a head that begins in it is behind that end, or its own body ends there at the latest.
theorem starts_without_more {text more : List Char} (unquoted : '"' ∉ text) (closes : Closes text)
    (starts : Starts (text ++ more)) : Starts text := by
  obtain ⟨statement, segment, rest, written, split⟩ := starts
  obtain ⟨front, gap, back, blank, rfl⟩ := closes
  cases written with
  | @intro schema table head body space heads =>
    have free : '"' ∉ front := fun member => unquoted (List.mem_append_left _ member)
    have same : head ++ (body ++ ')' :: (space ++ [';']) ++ rest) =
        front ++ ')' :: (gap ++ ';' :: back ++ more) := by
      simpa using split.symm
    obtain ⟨inner, rfl⟩ := head_before_paren heads free same
    rw [List.append_assoc]
    exact starts_of_head heads ⟨inner, gap, back, blank, rfl⟩

theorem segment_closes {statement : Statement} {segment : List Char}
    (written : Segment statement segment) (before rest : List Char) :
    Closes (before ++ (segment ++ rest)) := by
  cases written with
  | @intro schema table head body gap _ _ blank =>
    exact ⟨before ++ (head ++ body), gap, rest, blank, by simp⟩

theorem line_missing {text : List Char} (separates : Separates text) (next : List Char) :
    readStatement? (text ++ '\n' :: next) = none := by
  cases found : readStatement? (text ++ '\n' :: next) with
  | none => rfl
  | some read =>
    obtain ⟨c, more, behind, spelled⟩ := word_goes_on separates found
    obtain rfl : '\n' = c := Option.some.inj behind
    have letter := spells_mem spelled (List.mem_append_right text List.mem_cons_self)
    exact absurd letter (by decide)

theorem statements_behind_line {text : List Char} (separates : Separates text)
    (next : List Char) : statements (text ++ '\n' :: next) = statements next := by
  induction text with
  | nil => exact statements_missing (line_missing separates next)
  | cons c text ih =>
    have missing := line_missing separates next
    rw [List.cons_append] at missing ⊢
    rw [statements_missing missing, ih (separates_tail separates)]

-- The gaps and the statements of a text stay what they are when lines follow that have statements of
-- their own, as no statement begins between them.
theorem Scans.continued {text : List Char} {pieces : List Piece} (scans : Scans text pieces)
    (unquoted : '"' ∉ text) (separates : Separates (behindStatements text)) (next : List Char) :
    statements (text ++ '\n' :: next) = pieces.map Piece.statement ++ statements next := by
  induction scans with
  | done idle =>
    rw [behind_none idle] at separates
    exact statements_behind_line separates next
  | @found piece rest later written idle _ ih =>
    have still : Idle piece.gap (piece.segment ++ (rest ++ '\n' :: next)) := by
      intro before after split present starts
      rw [← List.append_assoc, ← List.append_assoc, List.append_assoc after] at starts
      refine idle before after split present (starts_without_more ?_ ?_ starts)
      · intro member
        refine unquoted ?_
        rw [split, List.append_assoc]
        exact List.mem_append_right before member
      · exact segment_closes written after rest
    have free : '"' ∉ rest := fun member =>
      unquoted (List.mem_append_right _ (List.mem_append_right _ member))
    rw [behind_gap_and_segment written idle] at separates
    rw [List.append_assoc, List.append_assoc, statements_behind_gap still,
      statements_found (read_statement_complete written _), ih free separates, List.map_cons,
      List.cons_append]

-- A text and a line break before another text change nothing in what is read of that one, and the
-- other nothing in what is read of the first, where the first has no quote and no word in any case
-- that begins a statement behind its last one. The tables, the events and the answer are then those
-- of both texts read in turn.
theorem lines_read_like_texts_in_turn (first second : String) (unquoted : '"' ∉ first.toList)
    (separates : Separates (behindStatements first.toList)) :
    (∃ pieces, Scans first.toList pieces ∧
      first.toList = pieces.flatMap Piece.text ++ behindStatements first.toList) ∧
    ∀ known,
      let (between, _, events) := interpret known first
      let (tables, found, later) := interpret between second
      interpret known (first ++ "\n" ++ second) = (tables, found, events ++ later) := by
  obtain ⟨pieces, scans, same⟩ := statements_scan first.toList
  refine ⟨⟨pieces, scans, scans.behind⟩, fun known => ?_⟩
  have joined : statements (first ++ "\n" ++ second).toList =
      statements first.toList ++ statements second.toList := by
    have whole : (first ++ "\n" ++ second).toList = first.toList ++ '\n' :: second.toList := by
      simp
    rw [whole, scans.continued unquoted separates, same]
  simp only [interpret, tablesOf, joined, List.map_append, List.foldl_append]

def firstLines : String :=
  "create table u create table t (a int);\n) no more"

def nextLines : String :=
  "(x) ; create table \"u\" (b);"

theorem lines_with_unfinished_statement :
    ('"' ∉ firstLines.toList ∧ Separates (behindStatements firstLines.toList)) ∧
    behindStatements firstLines.toList = "\n) no more".toList ∧
    interpret [] (firstLines ++ "\n" ++ nextLines) =
      ([⟨"t", [⟨"a", "int"⟩]⟩, ⟨"u", [⟨"b", ""⟩]⟩], true, [.tableRead "t" 1, .tableRead "u" 1]) := by
  have unquoted : '"' ∉ firstLines.toList := by decide +kernel
  have left : behindStatements firstLines.toList = "\n) no more".toList := by decide +kernel
  have separates : Separates (behindStatements firstLines.toList) := by
    have apart : 'a' ∉ "\n) no more".toList.map foldCase := by decide +kernel
    rw [left]
    intro before word after split spelled
    have letter : 'a' ∈ word.map foldCase := by
      rw [spelled]
      decide
    rw [split, List.map_append, List.map_append] at apart
    exact apart (by simp [letter])
  obtain ⟨-, read⟩ := lines_read_like_texts_in_turn firstLines nextLines unquoted separates
  have alone : interpret [] firstLines = ([⟨"t", [⟨"a", "int"⟩]⟩], true, [.tableRead "t" 1]) := by
    decide +kernel
  have next : interpret [⟨"t", [⟨"a", "int"⟩]⟩] nextLines =
      ([⟨"t", [⟨"a", "int"⟩]⟩, ⟨"u", [⟨"b", ""⟩]⟩], true, [.tableRead "u" 1]) := by decide +kernel
  refine ⟨⟨unquoted, separates⟩, left, ?_⟩
  simpa [alone, next] using read []

-- A quote that is closed only in the next line makes a name of all between.
example : statements "create table \" create table t (a);\n\" (b);".toList ≠
    statements "create table \" create table t (a);".toList ++ statements "\" (b);".toList := by
  decide +kernel

end SourceDiagram.Schema
