import SourceDiagram.Proofs.Schema.Segments
import SourceDiagram.Schema.Session

set_option autoImplicit false

namespace SourceDiagram.Schema

structure Piece where
  gap : List Char
  statement : Statement
  segment : List Char

def Starts (text : List Char) : Prop :=
  ∃ statement segment rest, Segment statement segment ∧ text = segment ++ rest

inductive Scans : List Char → List Piece → Prop where
  | done {text : List Char} :
      (∀ before after, text = before ++ after → ¬ Starts after) → Scans text []
  | found (piece : Piece) {rest : List Char} {later : List Piece} :
      Segment piece.statement piece.segment →
      (∀ before after, piece.gap = before ++ after → after ≠ [] →
        ¬ Starts (after ++ (piece.segment ++ rest))) →
      Scans rest later →
      Scans (piece.gap ++ (piece.segment ++ rest)) (piece :: later)

theorem read_statement_complete {statement : Statement} {segment : List Char}
    (written : Segment statement segment) (rest : List Char) :
    readStatement? (segment ++ rest) = some (statement, rest) :=
  read_statement_iff.mpr ⟨segment, written, rfl⟩

theorem starts_iff {text : List Char} : Starts text ↔ (readStatement? text).isSome := by
  constructor
  · rintro ⟨statement, segment, rest, written, rfl⟩
    rw [read_statement_complete written]
    rfl
  · intro found
    obtain ⟨⟨statement, rest⟩, read⟩ := Option.isSome_iff_exists.mp found
    obtain ⟨segment, written, split⟩ := read_statement_iff.mp read
    exact ⟨statement, segment, rest, written, split⟩

theorem segment_unique {statement statement' : Statement} {segment segment' rest rest' : List Char}
    (first : Segment statement segment) (second : Segment statement' segment')
    (same : segment ++ rest = segment' ++ rest') :
    statement = statement' ∧ segment = segment' ∧ rest = rest' := by
  have read := read_statement_complete first rest
  rw [same, read_statement_complete second rest'] at read
  cases read
  exact ⟨rfl, List.append_cancel_right same, rfl⟩

theorem gap_not_shorter {gap gap' segment rest text : List Char} {statement : Statement}
    (written : Segment statement segment)
    (same : gap ++ (segment ++ rest) = gap' ++ text)
    (clean : ∀ before after, gap' = before ++ after → after ≠ [] → ¬ Starts (after ++ text)) :
    ∃ more, gap = gap' ++ more := by
  rcases List.append_eq_append_iff.mp same with ⟨more, front, back⟩ | ⟨more, front, -⟩
  · cases more with
    | nil => exact ⟨[], by rw [front, List.append_nil, List.append_nil]⟩
    | cons c more =>
      refine absurd ?_ (clean gap (c :: more) front (by simp))
      exact ⟨statement, segment, rest, written, back.symm⟩
  · exact ⟨more, front⟩

theorem scan_unique {text : List Char} {pieces others : List Piece} (first : Scans text pieces)
    (second : Scans text others) : pieces = others := by
  induction first generalizing others with
  | done clean =>
    cases second with
    | done => rfl
    | @found piece rest later written => exact absurd ⟨_, _, rest, written, rfl⟩ (clean _ _ rfl)
  | @found piece rest later written clean scans ih =>
    generalize split : piece.gap ++ (piece.segment ++ rest) = text at second
    cases second with
    | done clean => exact absurd ⟨_, _, rest, written, rfl⟩ (clean _ _ split.symm)
    | @found other otherRest otherLater otherWritten otherClean otherScans =>
      obtain ⟨more, longer⟩ := gap_not_shorter written split otherClean
      obtain ⟨none, shorter⟩ := gap_not_shorter otherWritten split.symm clean
      have nothing : more = [] := by
        have lengths := congrArg List.length longer
        have others := congrArg List.length shorter
        simp only [List.length_append] at lengths others
        exact List.eq_nil_of_length_eq_zero (by omega)
      rw [nothing, List.append_nil] at longer
      rw [longer] at split
      obtain ⟨statement, segment, rfl⟩ :=
        segment_unique written otherWritten (List.append_cancel_left split)
      rw [ih otherScans]
      cases piece
      cases other
      simp_all

theorem Scans.skip {c : Char} {cs : List Char} {pieces : List Piece} (scans : Scans cs pieces)
    (clean : ¬ Starts (c :: cs)) :
    ∃ wider, Scans (c :: cs) wider ∧ wider.map Piece.statement = pieces.map Piece.statement := by
  cases scans with
  | done none =>
    refine ⟨[], .done ?_, rfl⟩
    intro before after split
    cases before with
    | nil => rwa [← split.trans (List.nil_append after)]
    | cons d before => exact none before after (List.cons.inj split).2
  | @found piece rest later written inside scans =>
    refine ⟨{ piece with gap := c :: piece.gap } :: later,
      .found { piece with gap := c :: piece.gap } written ?_ scans, rfl⟩
    intro before after split present
    cases before with
    | nil => rwa [← split.trans (List.nil_append after)]
    | cons d before => exact inside before after (List.cons.inj split).2 present

theorem statements_found {text rest : List Char} {statement : Statement}
    (found : readStatement? text = some (statement, rest)) :
    statements text = statement :: statements rest := by
  cases text with
  | nil => cases found
  | cons c cs =>
    rw [statements]
    split
    · rename_i read
      cases found.symm.trans read
      rfl
    · rename_i missing
      cases found.symm.trans missing

theorem statements_missing {c : Char} {cs : List Char} (missing : readStatement? (c :: cs) = none) :
    statements (c :: cs) = statements cs := by
  rw [statements]
  split
  · rename_i read
    cases missing.symm.trans read
  · rfl

theorem statements_scan (text : List Char) :
    ∃ pieces, Scans text pieces ∧ pieces.map Piece.statement = statements text := by
  induction text using statements.induct with
  | case1 =>
    refine ⟨[], .done ?_, by rw [statements, List.map_nil]⟩
    intro before after split
    obtain ⟨-, rfl⟩ := List.append_eq_nil_iff.mp split.symm
    rw [starts_iff]
    decide
  | case2 c cs statement rest found shorter ih =>
    obtain ⟨segment, written, split⟩ := read_statement_iff.mp found
    obtain ⟨pieces, scans, same⟩ := ih
    refine ⟨⟨[], statement, segment⟩ :: pieces, ?_, ?_⟩
    · rw [split, ← List.nil_append (segment ++ rest)]
      refine .found ⟨[], statement, segment⟩ written ?_ scans
      intro before after none present
      exact absurd (List.append_eq_nil_iff.mp none.symm).2 present
    · rw [statements_found found, List.map_cons, same]
  | case3 c cs missing ih =>
    obtain ⟨pieces, scans, same⟩ := ih
    obtain ⟨wider, widened, kept⟩ := scans.skip (by rw [starts_iff, missing]; simp)
    refine ⟨wider, widened, ?_⟩
    rw [kept, same, statements_missing missing]

theorem no_statement_iff (text : List Char) :
    statements text = [] ↔ ∀ before after, text = before ++ after → ¬ Starts after := by
  obtain ⟨pieces, scans, same⟩ := statements_scan text
  constructor
  · intro none
    rw [none, List.map_eq_nil_iff] at same
    subst same
    cases scans with
    | done clean => exact clean
  · intro clean
    rw [← same, scan_unique scans (.done clean), List.map_nil]

theorem statements_read_uniquely (text : String) :
    (∃ pieces, Scans text.toList pieces ∧ (∀ other, Scans text.toList other → other = pieces) ∧
      statements text.toList = pieces.map Piece.statement ∧
      ∀ known, interpret known text =
        let created := pieces.map fun piece => readTable piece.statement
        (created.foldl insertTable known, !(created.foldl insertTable known).isEmpty,
          created.map tableEvent)) ∧
    ∀ (schema schema' : Option (List Char)) (table table' before head head' rest rest' : List Char),
      text.toList = before ++ (head ++ rest) → text.toList = before ++ (head' ++ rest') →
      Head schema table head → Head schema' table' head' →
      schema = schema' ∧ table = table' ∧ head = head' := by
  obtain ⟨pieces, scans, same⟩ := statements_scan text.toList
  constructor
  · refine ⟨pieces, scans, fun other others => scan_unique others scans, same.symm, ?_⟩
    intro known
    have created : tablesOf text = pieces.map fun piece => readTable piece.statement := by
      rw [tablesOf, ← same, List.map_map]
      rfl
    simp only [interpret, created]
  · intro schema schema' table table' before head head' rest rest' first second written written'
    exact head_unique written written' (List.append_cancel_left (first.symm.trans second))

end SourceDiagram.Schema
