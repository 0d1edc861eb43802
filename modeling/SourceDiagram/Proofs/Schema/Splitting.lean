import Mathlib.Data.String.Basic
import SourceDiagram.Proofs.Schema.Constraints

set_option autoImplicit false

namespace SourceDiagram.Schema

def depthOf (text : List Char) : Nat :=
  text.foldl depthAfter 0

def Sealed (text : List Char) : Prop :=
  ∀ front back, text = front ++ ',' :: back → depthOf front ≠ 0

-- No clauses at all would join to the empty text, too, but that has one clause, an empty one.
structure Decomposes (body : List Char) (clauses : List (List Char)) : Prop where
  present : clauses ≠ []
  joined : joinClauses clauses = body
  whole : ∀ clause ∈ clauses, Sealed clause
  closed : ∀ clause ∈ clauses.dropLast, depthOf clause = 0

theorem whole_iff_no_comma (depth : Nat) (text : List Char) :
    clausesFrom depth text = [text] ↔
      ∀ front back, text = front ++ ',' :: back → front.foldl depthAfter depth ≠ 0 := by
  induction text generalizing depth with
  | nil => simp [clausesFrom]
  | cons c cs ih =>
    by_cases comma : c = ',' ∧ depth = 0
    · obtain ⟨rfl, rfl⟩ := comma
      rw [clauses_comma]
      constructor
      · intro same
        cases same
      · intro free
        exact absurd rfl (free [] cs rfl)
    · rw [whole_inside cs comma, ih]
      constructor
      · intro free front back split
        cases front with
        | nil =>
          obtain ⟨rfl, rfl⟩ := List.cons.inj split
          exact fun outside => comma ⟨rfl, outside⟩
        | cons d front =>
          obtain ⟨rfl, rest⟩ := List.cons.inj split
          exact free front back rest
      · intro free front back split
        exact free (c :: front) back (by rw [split, List.cons_append])

theorem whole_iff_sealed (text : List Char) : splitClauses text = [text] ↔ Sealed text :=
  whole_iff_no_comma 0 text

theorem joined_head (c : Char) {clauses : List (List Char)} (present : clauses ≠ []) :
    joinClauses (clauses.modifyHead (c :: ·)) = c :: joinClauses clauses := by
  obtain ⟨clause, later, rfl⟩ := List.exists_cons_of_ne_nil present
  rw [List.modifyHead_cons]
  cases later with
  | nil => simp [joinClauses]
  | cons next others => rw [joined_cons, joined_cons, List.cons_append]

theorem joined_empty {clauses : List (List Char)} (present : clauses ≠ []) :
    joinClauses ([] :: clauses) = ',' :: joinClauses clauses := by
  obtain ⟨clause, later, rfl⟩ := List.exists_cons_of_ne_nil present
  exact joined_cons [] clause later

theorem joined_back (depth : Nat) (body : List Char) :
    joinClauses (clausesFrom depth body) = body := by
  induction body generalizing depth with
  | nil => rfl
  | cons c cs ih =>
    by_cases comma : c = ',' ∧ depth = 0
    · obtain ⟨rfl, rfl⟩ := comma
      rw [clauses_comma, joined_empty (clauses_nonempty 0 cs), ih]
    · rw [clauses_inside cs comma, joined_head c (clauses_nonempty _ cs), ih]

theorem split_decomposes (body : List Char) : Decomposes body (splitClauses body) := by
  have cut := @split_cut body _ rfl
  refine ⟨clauses_nonempty 0 body, joined_back 0 body, ?_, cut.closed⟩
  intro clause member
  exact (whole_iff_sealed clause).mp (cut.whole clause member)

theorem decomposes_iff (body : List Char) (clauses : List (List Char)) :
    Decomposes body clauses ↔ clauses = splitClauses body := by
  constructor
  · intro decomposes
    have whole : ∀ clause ∈ clauses, splitClauses clause = [clause] := by
      intro clause member
      exact (whole_iff_sealed clause).mpr (decomposes.whole clause member)
    have split := joined_splits ⟨whole, decomposes.closed⟩ decomposes.present
    rw [← split, decomposes.joined]
  · rintro rfl
    exact split_decomposes body

structure Span where
  first : Nat
  last : Nat
deriving DecidableEq, Repr

-- The spans of the clauses from here on, where the current one began at `first` and the rest of the
-- body begins at `here`. Behind a comma, the next clause begins one byte later.
def spansFrom (depth first here : Nat) : List Char → List Span
  | [] => [⟨first, here⟩]
  | c :: cs =>
    if c = ',' && depth = 0 then ⟨first, here⟩ :: spansFrom 0 (here + 1) (here + c.utf8Size) cs
    else spansFrom (depthAfter depth c) first (here + c.utf8Size) cs

def clauseSpans (body : List Char) : List Span :=
  spansFrom 0 0 0 body

structure Bounds (body : List Char) (span : Span) (clause : List Char) : Prop where
  first : String.Pos.Raw.IsValid (String.ofList body) ⟨span.first⟩
  last : String.Pos.Raw.IsValid (String.ofList body) ⟨span.last⟩
  text : String.Pos.Raw.extract (String.ofList body) ⟨span.first⟩ ⟨span.last⟩ =
    String.ofList clause

theorem spans_comma (first here : Nat) (cs : List Char) :
    spansFrom 0 first here (',' :: cs) = ⟨first, here⟩ :: spansFrom 0 (here + 1) (here + 1) cs := rfl

theorem spans_inside {depth : Nat} {c : Char} (inside : ¬ (c = ',' ∧ depth = 0)) (first here : Nat)
    (cs : List Char) :
    spansFrom depth first here (c :: cs) =
      spansFrom (depthAfter depth c) first (here + c.utf8Size) cs := by
  have comma : ¬ (c = ',' && depth = 0) = true := by
    simpa using inside
  rw [spansFrom, if_neg comma]

theorem offset_valid (front back : List Char) :
    String.Pos.Raw.IsValid (String.ofList (front ++ back)) ⟨String.utf8Len front⟩ := by
  rw [String.Pos.Raw.isValid_ofList]
  exact ⟨front.length, by rw [List.take_left, String.utf8ByteSize_ofList]⟩

theorem bounds_between (before clause after : List Char) :
    Bounds (before ++ clause ++ after)
      ⟨String.utf8Len before, String.utf8Len before + String.utf8Len clause⟩ clause := by
  constructor
  · rw [List.append_assoc]
    exact offset_valid before (clause ++ after)
  · rw [← String.utf8Len_append]
    exact offset_valid (before ++ clause) after
  · exact String.extract_of_valid before clause after

-- The scan has passed `before` and is in a clause of which it has passed `opened`.
theorem spans_bound (depth : Nat) (before opened rest : List Char) :
    List.Forall₂ (Bounds (before ++ opened ++ rest))
      (spansFrom depth (String.utf8Len before)
        (String.utf8Len before + String.utf8Len opened) rest)
      ((clausesFrom depth rest).modifyHead (opened ++ ·)) := by
  induction rest generalizing depth before opened with
  | nil =>
    rw [spansFrom, clausesFrom, List.modifyHead_cons, List.append_nil opened]
    exact .cons (bounds_between before opened []) .nil
  | cons c cs ih =>
    by_cases comma : c = ',' ∧ depth = 0
    · obtain ⟨rfl, rfl⟩ := comma
      have here : String.utf8Len (before ++ opened ++ [',']) =
          String.utf8Len before + String.utf8Len opened + 1 := by
        rw [String.utf8Len_append, String.utf8Len_append]
        rfl
      have later := ih 0 (before ++ opened ++ [',']) []
      rw [here, String.utf8Len_nil, Nat.add_zero, List.append_nil, List.append_assoc,
        List.singleton_append] at later
      rw [spans_comma, clauses_comma, List.modifyHead_cons, List.append_nil]
      refine .cons (bounds_between before opened (',' :: cs)) ?_
      obtain ⟨clause, others, found⟩ := List.exists_cons_of_ne_nil (clauses_nonempty 0 cs)
      rw [found] at later ⊢
      exact later
    · have later := ih (depthAfter depth c) before (opened ++ [c])
      obtain ⟨clause, others, found⟩ := List.exists_cons_of_ne_nil
        (clauses_nonempty (depthAfter depth c) cs)
      have width : String.utf8Len (opened ++ [c]) = String.utf8Len opened + c.utf8Size := by
        rw [String.utf8Len_append, String.utf8Len_cons, String.utf8Len_nil, Nat.zero_add]
      have split : before ++ (opened ++ [c]) ++ cs = before ++ opened ++ c :: cs := by
        simp only [List.append_assoc, List.singleton_append]
      rw [width, ← Nat.add_assoc, split, found] at later
      rw [spans_inside comma, clauses_inside cs comma, found]
      simpa only [List.modifyHead_cons, List.append_assoc, List.singleton_append] using later

theorem clause_spans_bound (body : List Char) :
    List.Forall₂ (Bounds body) (clauseSpans body) (splitClauses body) := by
  have scanned := spans_bound 0 [] [] body
  obtain ⟨clause, later, found⟩ := List.exists_cons_of_ne_nil (clauses_nonempty 0 body)
  rw [found] at scanned
  rw [splitClauses, found]
  exact scanned

-- The clauses of a body are the one way to cut it at commas where no piece has a comma outside
-- parentheses and every piece but the last closes those that it opens. So a piece is not cut again,
-- and a comma behind a body that is closed cuts it off. The spans that the scan takes the clauses
-- from begin and end between characters.
theorem clauses_are_the_one_decomposition (body : List Char) :
    (∀ clauses, Decomposes body clauses ↔ clauses = splitClauses body) ∧
    splitClauses body ≠ [] ∧
    (∀ clause ∈ splitClauses body, splitClauses clause = [clause]) ∧
    (∀ back, depthOf body = 0 →
      splitClauses (body ++ ',' :: back) = splitClauses body ++ splitClauses back) ∧
    List.Forall₂ (Bounds body) (clauseSpans body) (splitClauses body) := by
  refine ⟨decomposes_iff body, clauses_nonempty 0 body, (split_cut rfl).whole, ?_,
    clause_spans_bound body⟩
  intro back closed
  exact clauses_concat closed back

theorem clauses_of_stray_parentheses :
    depthOf [')', ',', 'é', '(', ',', ')'] = 0 ∧
    splitClauses [')', ',', 'é', '(', ',', ')', ',', '(', ','] =
      [[')'], ['é', '(', ',', ')'], ['(', ',']] ∧
    clauseSpans [')', ',', 'é', '(', ',', ')', ',', '(', ','] = [⟨0, 1⟩, ⟨2, 7⟩, ⟨8, 10⟩] := by
  have closed : depthOf [')', ',', 'é', '(', ',', ')'] = 0 := rfl
  obtain ⟨-, -, -, cut, -⟩ := clauses_are_the_one_decomposition [')', ',', 'é', '(', ',', ')']
  exact ⟨closed, cut ['(', ','] closed, rfl⟩

end SourceDiagram.Schema
