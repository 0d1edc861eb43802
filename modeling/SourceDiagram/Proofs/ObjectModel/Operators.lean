import SourceDiagram.Proofs.ObjectModel.Literals
import SourceDiagram.Syntax.Statement

set_option autoImplicit false

namespace SourceDiagram.ObjectModel

open SourceDiagram.Syntax
open SourceDiagram.Syntax.Expression

section

variable {descent : Descent} {context : Context} {indents : List Nat} {gap rest : List Char}

section

variable {holds : SyntaxTree → Prop} {start stop : Place} {level : Option Nat} {lexeme : Lexeme}
  {after : List Char}

theorem operand_of_primary (starts : Starts lexeme) (meets : Meets start.text level lexeme after)
    (runs : Runs (primary descent context) start stop holds) :
    Runs (operand descent context) start stop holds := by
  refine Runs.cursor.bind fun before lies => ?_
  rw [lies.ahead meets]
  rcases starts with (_ | _ | _) | _ <;> exact runs

theorem operation_end {place : Place} (ends : Ends stops place context) (rank : Rank)
    (left : SyntaxTree) : Runs (operation descent context rank left) place place
      (Sum.elim (fun _ => False) (· = left)) := by
  obtain ⟨lexeme, member, follows⟩ := ends.stop
  refine (Runs.follow follows).next ?_
  rcases mem_stops member with rfl | rfl | rfl | rfl | rfl | rfl <;> exact .pure rfl

theorem no_comparison {place : Place} (ends : Ends stops place context) :
    Runs (comparison? context) place place (· = none) := by
  obtain ⟨lexeme, member, follows⟩ := ends.stop
  refine (Runs.follow follows).next ?_
  rcases mem_stops member with rfl | rfl | rfl | rfl | rfl | rfl <;> exact .pure rfl

-- Where no operator but a bar follows, arithmetic is the whole expression.
theorem expression_of_arithmetic (starts : Starts lexeme)
    (meets : Meets start.text level lexeme after) (positive : 0 < descent.limit)
    (ends : Ends stops stop context) (runs : Runs (arithmetic descent context 0) start stop holds)
    (rank : Rank) : Runs (expression descent context rank) start stop holds := by
  obtain ⟨last, member, follows⟩ := ends.stop
  -- No comparison, no assignment expression and no infix word follows, so each loop ends at once.
  have comparison : Runs (comparison descent context) start stop holds := by
    refine runs.bind fun first held => ?_
    exact .next (.finish positive ((no_comparison ends).next (.pure rfl))
      (Eq.refl [(Role.plain, first)])) (.pure held)
  have prefixed : Runs (prefixed descent context) start stop holds := by
    refine Runs.cursor.bind fun here lies => ?_
    rw [lies.ahead meets]
    rcases starts with (_ | _ | _) | _
    all_goals
      refine comparison.bind fun tree held => ?_
      split
      · exact ends.refused (by decide) (.pure held)
      · exact .pure held
  have keyword : last.keyword? = none := by
    rcases mem_stops member with rfl | rfl | rfl | rfl | rfl | rfl <;> rfl
  refine prefixed.bind fun first held => .finish positive ?_ held
  refine (Runs.keyword? follows).next ?_
  rw [keyword]
  exact .pure rfl

theorem expression_of_primary (starts : Starts lexeme)
    (meets : Meets start.text level lexeme after) (positive : 0 < descent.limit)
    (ends : Ends stops stop context) (runs : Runs (primary descent context) start stop holds)
    (rank : Rank) : Runs (expression descent context rank) start stop holds := by
  have operand := operand_of_primary starts meets runs
  have arithmetic : Runs (arithmetic descent context 0) start stop holds :=
    operand.bind fun tree held => .finish positive (operation_end ends 0 tree) held
  exact expression_of_arithmetic starts meets positive ends arithmetic rank

end

theorem operand_read {related : List Char → SyntaxTree → Prop} {text : List Char}
    (starting : Starting text) (reads : ReadsOperand descent related text)
    (leads : Leads gap none) (ends : Ends (.mark .bar :: stops) ⟨rest, indents⟩ context) :
    Runs (operand descent context) ⟨gap ++ (text ++ rest), indents⟩ ⟨rest, indents⟩
      (related text) := by
  obtain ⟨lexeme, after, starts, shows_⟩ := starting (ends.parted (List.Subset.refl _))
  exact operand_of_primary starts (leads shows_) (reads context gap rest indents leads ends)

-- The rank of the right operands of a bar, where another bar ends the operand.
def barRank : Rank := 15

theorem operation_bar_end {place : Place} (ends : Ends (.mark .bar :: stops) place context)
    (left : SyntaxTree) : Runs (operation descent context barRank left) place place
      (Sum.elim (fun _ => False) (· = left)) := by
  obtain ⟨lexeme, member, follows⟩ := ends.stop
  rcases List.mem_cons.mp member with rfl | member
  · exact (Runs.follow follows).next (.pure rfl)
  · exact operation_end ⟨ends.apart, lexeme, member, follows⟩ barRank left

def ReadsRight (descent : Descent) (text : List Char) : Prop :=
  ∀ (context : Context) (gap rest : List Char) (indents : List Nat), Leads gap none →
    Ends (.mark .bar :: stops) ⟨rest, indents⟩ context →
    Runs (descent.read (.arithmetic context barRank)) ⟨gap ++ (text ++ rest), indents⟩
      ⟨rest, indents⟩ (Told text)

theorem operation_bar {text right : List Char} {left : SyntaxTree} (told : Told text left)
    (starting : Starting right) (reads : ReadsRight descent right)
    (ends : Ends (.mark .bar :: stops) ⟨rest, indents⟩ context) :
    Runs (operation descent context 0 left) ⟨' ' :: '|' :: ' ' :: (right ++ rest), indents⟩
      ⟨rest, indents⟩
      (Sum.elim (Told (text ++ ' ' :: '|' :: ' ' :: right)) fun _ => False) := by
  obtain ⟨lexeme, after, starts, shows_⟩ := starting (ends.parted (List.Subset.refl _))
  have bar : Meets (' ' :: '|' :: ' ' :: (right ++ rest)) none (.mark .bar)
      (' ' :: (right ++ rest)) :=
    (Shows.bar (by simp)).spaced
  refine (Runs.follow (.ahead bar)).next ?_
  refine (Runs.skip bar).bind fun _ _ => ?_
  have read := reads context [' '] rest indents leads_space ends
  refine (Runs.demand shows_.spaced starts.valid read).bind fun tree later => ?_
  exact .pure (told_either told later)

theorem bars_ends (operands : List (List Char))
    (ends : Ends stops ⟨rest, indents⟩ context) :
    Ends (.mark .bar :: stops)
      ⟨operands.flatMap (fun operand => ' ' :: '|' :: ' ' :: operand) ++ rest, indents⟩
      context := by
  cases operands with
  | nil => exact ends.mono (List.subset_cons_self _ _)
  | cons operand operands =>
    exact ⟨apart_cons _ (by decide), _, List.mem_cons_self, .ahead (Shows.bar (by simp)).spaced⟩

theorem operations_run {operands : List (List Char)}
    (starting : ∀ operand ∈ operands, Starting operand)
    (reads : ∀ operand ∈ operands, ReadsRight descent operand) {text : List Char}
    {left : SyntaxTree} (told : Told text left) (ends : Ends stops ⟨rest, indents⟩ context)
    {limit : Nat} (bound : operands.length < limit) :
    Runs (Reader.iterate (operation descent context 0) limit left)
      ⟨operands.flatMap (fun operand => ' ' :: '|' :: ' ' :: operand) ++ rest, indents⟩
      ⟨rest, indents⟩
      (Told (text ++ operands.flatMap fun operand => ' ' :: '|' :: ' ' :: operand)) := by
  -- The text of the left side grows by one operand in each round.
  induction operands generalizing text left limit with
  | nil => exact .finish (by omega) (operation_end ends 0 left) (by simpa using told)
  | cons operand operands ih =>
    rw [List.length_cons] at bound
    obtain ⟨firstStarting, laterStarting⟩ := List.forall_mem_cons.mp starting
    obtain ⟨firstReads, laterReads⟩ := List.forall_mem_cons.mp reads
    have step := operation_bar told firstStarting firstReads (bars_ends operands ends)
    rw [List.flatMap_cons, List.append_assoc]
    refine .again (by omega) step fun next held => ?_
    have run := ih laterStarting laterReads held (Nat.lt_sub_of_add_lt bound)
    simpa using run

end

-- The descent into phrases that are nested at most `depth` deep.
def nested (limit depth : Nat) : Descent := ⟨limit, readNested limit depth⟩

def Understood (limit : Nat) : Part → List Char → Prop
  | .reference, text => ∀ depth, text.length ≤ depth + 1 → text.length < limit →
      ReadsSpine (nested limit depth) text
  | .operand, text => ∀ depth, text.length ≤ depth + 1 → text.length < limit →
      ReadsOperand (nested limit depth) Told text
  | .whole, text => ∀ depth, text.length ≤ depth → text.length < limit →
      Reads (nested limit depth) Told text

theorem length_in_flat {ι : Type} {f : ι → List Char} {texts : List ι} {text : ι}
    (member : text ∈ texts) : (f text).length ≤ (texts.flatMap f).length := by
  obtain ⟨before, after, rfl⟩ := List.append_of_mem member
  simp only [List.flatMap_append, List.flatMap_cons, List.length_append]
  omega

theorem item_length {items : List (List Char)} {item : List Char} (member : item ∈ items) :
    item.length ≤ (listed items).length := by
  obtain ⟨first, items, rfl⟩ := List.exists_cons_of_ne_nil (List.ne_nil_of_mem member)
  rw [listed_cons, List.length_append]
  rcases List.mem_cons.mp member with rfl | later
  · omega
  · have inside := length_in_flat (f := fun item => ',' :: ' ' :: item) later
    simp only [List.length_cons] at inside
    omega

theorem argument_length {items : List Expr} {item : Expr} (member : item ∈ items) :
    item.letters.length ≤ (listed (items.map Expr.letters)).length :=
  item_length (List.mem_map_of_mem member)

theorem operand_length {operands : List Expr} {operand : Expr} (member : operand ∈ operands) :
    operand.letters.length + 3 ≤ ((operands.map Expr.letters).flatMap fun operand =>
      ' ' :: '|' :: ' ' :: operand).length :=
  length_in_flat (f := fun operand => ' ' :: '|' :: ' ' :: operand) (List.mem_map_of_mem member)

theorem operand_right {operand : Expr} (spelled : Spelled .operand operand) {limit depth : Nat}
    (understood : Understood limit .operand operand.letters)
    (deep : operand.letters.length ≤ depth + 1) (bound : operand.letters.length < limit) :
    ReadsRight (nested limit (depth + 1)) operand.letters := by
  intro context gap rest indents leads ends
  have single := operand_read (operand_starting spelled) (understood depth deep bound) leads ends
  exact single.bind fun tree told =>
    .finish (Nat.zero_lt_of_lt bound) (operation_bar_end ends tree) told

-- An operand is read as deep as its alternatives less one, which the bar before it makes up for.
theorem union_understood {first : Expr} {operands : List Expr} {limit : Nat}
    (firstSpelled : Spelled .operand first)
    (laterSpelled : ∀ operand ∈ operands, Spelled .operand operand)
    (firstUnderstood : Understood limit .operand first.letters)
    (laterUnderstood : ∀ operand ∈ operands, Understood limit .operand operand.letters) :
    Understood limit .whole (operands.foldl .union first).letters := by
  intro depth deep bound context gap rest indents leads ends
  have starting := operand_starting firstSpelled
  have later : ∀ text ∈ operands.map Expr.letters, Starting text :=
    List.forall_mem_map.mpr fun operand member => operand_starting (laterSpelled operand member)
  have firstLength := starting.present
  rw [letters_union, List.map_cons, alternatives_cons] at deep bound ⊢
  rw [List.length_append] at deep bound
  obtain ⟨depth, rfl⟩ : ∃ shallower, depth = shallower + 1 := ⟨depth - 1, by omega⟩
  have firstRead := firstUnderstood depth (by omega) (by omega)
  have rights : ∀ text ∈ operands.map Expr.letters, ReadsRight (nested limit depth) text := by
    refine List.forall_mem_map.mpr fun operand member => ?_
    have shorter := operand_length member
    obtain ⟨depth, rfl⟩ : ∃ shallower, depth = shallower + 1 := ⟨depth - 1, by omega⟩
    exact operand_right (laterSpelled operand member) (laterUnderstood operand member) (by omega)
      (by omega)
  have count := count_le_flat (f := fun operand => ' ' :: '|' :: ' ' :: operand) (by simp)
    (operands.map Expr.letters)
  have bars := bars_ends (operands.map Expr.letters) ends
  obtain ⟨lexeme, after, starts, shows_⟩ := starting (bars.parted (List.Subset.refl _))
  rw [List.append_assoc]
  refine expression_of_arithmetic starts (leads shows_) (show 0 < limit by omega) ends ?_ 0
  refine (operand_read starting firstRead leads bars).bind fun tree told => ?_
  exact operations_run later rights told ends (show _ < limit by omega)

theorem spelled_understood {part : Part} {expr : Expr} (spelled : Spelled part expr)
    (limit : Nat) : Understood limit part expr.letters := by
  have inner {items : List Expr} (spelled : ∀ item ∈ items, Spelled .whole item) :
      ∀ text ∈ items.map Expr.letters, Starting text :=
    List.forall_mem_map.mpr fun item member => whole_starting (spelled item member)
  induction spelled with
  | name valid =>
    intro depth _ _
    rw [letters_name]
    exact name_spine valid
  | member _ valid ih =>
    intro depth deep bound
    simp only [letters_member, List.length_append, List.length_cons] at deep bound ⊢
    have later := valid.word.begins
    exact member_spine (ih depth (by omega) (by omega)) valid (show _ < limit by omega)
  | @subscript value arguments _ given spelled ih each =>
    intro depth deep bound
    rw [letters_subscript] at deep bound ⊢
    have whole := bound
    simp only [List.length_append, List.length_cons, List.length_nil] at deep bound
    refine subscript_spine (ih depth (by omega) (by omega)) (by simpa using given) (inner spelled)
      (List.forall_mem_map.mpr fun item member => ?_) whole
    have shorter := argument_length member
    exact each item member depth (by omega) (by omega)
  | reference _ ih =>
    intro depth deep bound context gap rest indents leads ends
    have read := (ih depth deep bound).operand (Nat.le_of_lt bound)
    exact (read context gap rest indents leads ends).mono fun _ refers => refers.toTold
  | @list items spelled ih =>
    intro depth deep bound
    rw [letters_list] at deep bound ⊢
    refine list_operand (inner spelled) (List.forall_mem_map.mpr fun item member => ?_) bound
    have shorter := argument_length member
    simp only [List.length_append, List.length_cons, List.length_nil] at deep bound
    exact ih item member depth (by omega) (by omega)
  | literal valid =>
    intro depth _ bound
    rw [letters_literal]
    exact literal_operand valid (show 0 < limit by omega)
  | union firstSpelled laterSpelled ih each => exact union_understood firstSpelled laterSpelled ih each

theorem written_understood {part : Part} {text : List Char} (written : Written part text)
    (limit : Nat) : Understood limit part text := by
  obtain ⟨expr, spelled, rfl, -⟩ := written_spelled written
  exact spelled_understood spelled limit

end SourceDiagram.ObjectModel
